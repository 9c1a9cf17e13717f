import Mathlib.Data.List.Basic
import Mathlib.Tactic.Ring

/-! Go values the webhook middleware computes with. A Go `string` is a byte
sequence that need not be valid UTF-8 (job output is copied in as it comes);
`int` and `time.Duration` are 64-bit two's complement, so arithmetic on them
wraps modulo `2 ^ 64`. Runes are read from bytes by `utf8.DecodeRune`, which
turns every ill-formed sequence into `RuneError` of width one. -/

namespace Ofelia

/-- A Go `string`: its bytes. -/
abbrev GoString := List UInt8

/-- The UTF-8 bytes of a Lean string, as a Go string literal holds them. -/
def lit (s : String) : GoString := s.data.flatMap String.utf8EncodeChar

/-- Results of fallible Go calls are compared value by value. -/
instance instDecidableEqExcept {ε α : Type} [DecidableEq ε] [DecidableEq α] : DecidableEq (Except ε α)
  | .ok a, .ok b => decidable_of_iff (a = b) (by simp)
  | .error a, .error b => decidable_of_iff (a = b) (by simp)
  | .ok _, .error _ | .error _, .ok _ => isFalse Except.noConfusion

/-! ### 64-bit integers -/

def maxInt : Int := 2 ^ 63 - 1

def minInt : Int := -2 ^ 63

/-- The value a 64-bit register holds after an arithmetic result `x`. -/
def wrap (x : Int) : Int := (x + 2 ^ 63) % 2 ^ 64 - 2 ^ 63

theorem wrap_of_range {x : Int} (h1 : minInt ≤ x) (h2 : x ≤ maxInt) : wrap x = x := by
  unfold wrap
  rw [Int.emod_eq_of_lt (by simp only [minInt] at h1; omega) (by simp only [maxInt] at h2; omega)]
  ring

theorem wrap_maxInt_succ : wrap (maxInt + 1) = minInt := by decide

theorem minInt_le_wrap (x : Int) : minInt ≤ wrap x := by
  unfold wrap minInt
  have := Int.emod_nonneg (x + 2 ^ 63) (by decide : (2 : Int) ^ 64 ≠ 0)
  omega

theorem wrap_le_maxInt (x : Int) : wrap x ≤ maxInt := by
  unfold wrap maxInt
  have := Int.emod_lt_of_pos (x + 2 ^ 63) (by decide : (0 : Int) < 2 ^ 64)
  omega

/-- A Go `int` (and a `time.Duration`): an integer a 64-bit register holds. -/
abbrev GoInt := { x : Int // minInt ≤ x ∧ x ≤ maxInt }

/-- The `GoInt` an arithmetic result `x` leaves in its register. -/
def GoInt.ofInt (x : Int) : GoInt := ⟨wrap x, minInt_le_wrap x, wrap_le_maxInt x⟩

theorem GoInt.ofInt_val_of_range {x : Int} (h1 : minInt ≤ x) (h2 : x ≤ maxInt) :
    (GoInt.ofInt x).val = x := wrap_of_range h1 h2

instance : OfNat GoInt n := ⟨GoInt.ofInt n⟩

/-! ### UTF-8 -/

/-- `utf8.RuneError`, U+FFFD. -/
def runeError : Nat := 0xFFFD

/-- Whether `b` lies in `lo ..= hi`. -/
def within (lo hi : UInt8) (b : UInt8) : Bool := lo ≤ b && b ≤ hi

/-- The `first` and `acceptRanges` tables of package `utf8` for a leading byte
`b0 ≥ 0xC2`: the length of the sequence and the range its second byte must lie
in. Length `0` marks a byte that never starts a sequence. -/
def leading (b0 : UInt8) : Nat × UInt8 × UInt8 :=
  if b0 < 0xE0 then (2, 0x80, 0xBF)
  else if b0 = 0xE0 then (3, 0xA0, 0xBF)
  else if b0 = 0xED then (3, 0x80, 0x9F)
  else if b0 < 0xF0 then (3, 0x80, 0xBF)
  else if b0 = 0xF0 then (4, 0x90, 0xBF)
  else if b0 < 0xF4 then (4, 0x80, 0xBF)
  else if b0 = 0xF4 then (4, 0x80, 0x8F)
  else (0, 0, 0)

/-- The multi-byte branch of `utf8.DecodeRune` after the leading byte `b0`. -/
def decodeSeq (b0 : UInt8) : Nat × UInt8 × UInt8 → GoString → Nat × Nat
  | (2, lo, hi), b1 :: _ =>
    if within lo hi b1 then ((b0.toNat % 0x20) * 0x40 + b1.toNat % 0x40, 2) else (runeError, 1)
  | (3, lo, hi), b1 :: b2 :: _ =>
    if within lo hi b1 && within 0x80 0xBF b2 then
      ((b0.toNat % 0x10) * 0x1000 + (b1.toNat % 0x40) * 0x40 + b2.toNat % 0x40, 3)
    else (runeError, 1)
  | (4, lo, hi), b1 :: b2 :: b3 :: _ =>
    if within lo hi b1 && within 0x80 0xBF b2 && within 0x80 0xBF b3 then
      ((b0.toNat % 0x8) * 0x40000 + (b1.toNat % 0x40) * 0x1000 + (b2.toNat % 0x40) * 0x40 +
        b3.toNat % 0x40, 4)
    else (runeError, 1)
  | _, _ => (runeError, 1)

/-- `utf8.DecodeRune`: the first rune of `p` and its width in bytes. An empty
input gives `(RuneError, 0)`; an ill-formed sequence gives `(RuneError, 1)`. -/
def decodeRune : GoString → Nat × Nat
  | [] => (runeError, 0)
  | b0 :: rest =>
    if b0 < 0x80 then (b0.toNat, 1)
    else if b0 < 0xC2 then (runeError, 1)
    else decodeSeq b0 (leading b0) rest

/-- The runes of `p` in order, each with the bytes it was decoded from, as a
`for range` loop over a Go string visits them. -/
def runes : GoString → List (Nat × GoString)
  | [] => []
  | b0 :: t =>
    match (decodeRune (b0 :: t)).2, t with
    | 2, b1 :: t1 => ((decodeRune (b0 :: t)).1, [b0, b1]) :: runes t1
    | 3, b1 :: b2 :: t2 => ((decodeRune (b0 :: t)).1, [b0, b1, b2]) :: runes t2
    | 4, b1 :: b2 :: b3 :: t3 => ((decodeRune (b0 :: t)).1, [b0, b1, b2, b3]) :: runes t3
    | _, t' => ((decodeRune (b0 :: t')).1, [b0]) :: runes t'

/-- `utf8.AppendRune`: the UTF-8 bytes of rune `r`; surrogates and values past
U+10FFFF are written as `RuneError`. -/
def encodeRune (r : Nat) : GoString :=
  if r < 0x80 then [r.toUInt8]
  else if r < 0x800 then [(0xC0 + r / 0x40).toUInt8, (0x80 + r % 0x40).toUInt8]
  else if 0xD800 ≤ r ∧ r < 0xE000 ∨ 0x10FFFF < r then [0xEF, 0xBF, 0xBD]
  else if r < 0x10000 then
    [(0xE0 + r / 0x1000).toUInt8, (0x80 + r / 0x40 % 0x40).toUInt8, (0x80 + r % 0x40).toUInt8]
  else
    [(0xF0 + r / 0x40000).toUInt8, (0x80 + r / 0x1000 % 0x40).toUInt8,
      (0x80 + r / 0x40 % 0x40).toUInt8, (0x80 + r % 0x40).toUInt8]

/-- Whether `s` is valid UTF-8: every rune a `range` loop reads is encoded by
exactly the bytes it was read from, so no byte is read as `RuneError`. -/
def validString (s : GoString) : Bool := (runes s).all fun r => r.2 = encodeRune r.1

theorem decodeRune_ascii (b : UInt8) (rest : GoString) (h : b < 0x80) :
    decodeRune (b :: rest) = (b.toNat, 1) := by
  simp [decodeRune, h]

@[simp] theorem runes_nil : runes [] = [] := rfl

/-- Reading the runes of `p` visits every byte once, in order. -/
theorem flatten_runes (p : GoString) : ((runes p).map Prod.snd).flatten = p := by
  induction p using runes.induct <;> simp_all [runes]

/-- A byte below `0x80` is a rune of its own. -/
theorem runes_cons_ascii {b : UInt8} (t : GoString) (h : b < 0x80) :
    runes (b :: t) = (b.toNat, [b]) :: runes t := by
  have hw : (decodeRune (b :: t)).2 = 1 := by rw [decodeRune_ascii b t h]
  rw [runes.eq_5 b t (fun _ _ h' _ => by omega) (fun _ _ _ h' _ => by omega)
    (fun _ _ _ _ h' _ => by omega), decodeRune_ascii b t h]

theorem runes_ascii : ∀ s : GoString, (∀ b ∈ s, b < 0x80) → runes s = s.map fun b => (b.toNat, [b])
  | [], _ => rfl
  | b :: t, h => by
    rw [runes_cons_ascii t (h b (List.mem_cons_self b t)),
      runes_ascii t fun c hc => h c (List.mem_cons_of_mem b hc), List.map_cons]

example : decodeRune (lit "µs") = (0xB5, 2) := by decide

example : encodeRune 0x2028 = lit " " := by decide

/-! ### Package `strings` -/

/-- `unicode.IsSpace`. -/
def isSpaceRune (r : Nat) : Bool :=
  r = 0x09 || r = 0x0A || r = 0x0B || r = 0x0C || r = 0x0D || r = 0x20 || r = 0x85 ||
    r = 0xA0 || r = 0x1680 || (0x2000 ≤ r && r ≤ 0x200A) || r = 0x2028 || r = 0x2029 ||
    r = 0x202F || r = 0x205F || r = 0x3000

/-- `strings.TrimSpace`: leading and trailing space runes removed. An ill-formed
byte reads as `RuneError`, which is not a space. -/
def trimSpace (s : GoString) : GoString :=
  let rs := (runes s).dropWhile fun r => isSpaceRune r.1
  (((rs.reverse.dropWhile fun r => isSpaceRune r.1).reverse).map Prod.snd).flatten

example : trimSpace (lit " \t a b\n") = lit "a b" := by decide

/-- `strings.TrimSpace` drops a leading space byte. -/
theorem trimSpace_cons_space {b : UInt8} (t : GoString) (h : b < 0x80) (hs : isSpaceRune b.toNat = true) :
    trimSpace (b :: t) = trimSpace t := by
  simp only [trimSpace, runes_cons_ascii t h, List.dropWhile_cons, hs, if_true]

/-- `strings.TrimSpace` keeps the bytes of a run of consecutive runes. -/
theorem length_trimSpace_le (s : GoString) : (trimSpace s).length ≤ s.length := by
  have h1 := List.IsSuffix.reverse (List.dropWhile_suffix
    (l := ((runes s).dropWhile fun r => isSpaceRune r.1).reverse) fun r => isSpaceRune r.1)
  rw [List.reverse_reverse] at h1
  obtain ⟨a, c, hac⟩ := List.IsInfix.trans (List.IsPrefix.isInfix h1)
    (List.IsSuffix.isInfix (List.dropWhile_suffix (l := runes s) fun r => isSpaceRune r.1))
  have h2 := congrArg (fun l => ((l.map Prod.snd).flatten).length) hac
  simp only [List.map_append, List.flatten_append, List.length_append, flatten_runes] at h2
  calc (trimSpace s).length ≤ _ + (trimSpace s).length := Nat.le_add_left _ _
    _ ≤ _ := Nat.le_add_right _ _
    _ = s.length := h2

/-- `null` followed by space bytes trims to `null`. -/
theorem trimSpace_null_spaces {r : GoString} (hs : ∀ b ∈ r, b < 0x80 ∧ isSpaceRune b.toNat = true) :
    trimSpace (lit "null" ++ r) = lit "null" := by
  have hn : ∀ b ∈ lit "null", b < 0x80 := by decide
  have ha : ∀ b ∈ lit "null" ++ r, b < 0x80 := fun b hb =>
    (List.mem_append.1 hb).elim (hn b) fun hb => (hs b hb).1
  have hd : (r.map fun b => (b.toNat, [b])).reverse.dropWhile (fun p => isSpaceRune p.1) = [] := by
    rw [List.dropWhile_eq_nil_iff]
    intro p hp
    obtain ⟨b, hb, rfl⟩ := List.mem_map.1 (List.mem_reverse.1 hp)
    exact (hs b hb).2
  rw [trimSpace, runes_ascii _ ha, List.map_append, List.dropWhile_append, if_neg (by decide),
    List.reverse_append, List.dropWhile_append, hd]
  rfl

end Ofelia
