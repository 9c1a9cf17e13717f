import Ofelia.Go.Basic
import Mathlib.Algebra.Order.Field.Power
import Mathlib.Tactic.Linarith
import Mathlib.Tactic.FieldSimp
import Mathlib.Tactic.Positivity

/-! Go's `float64`: IEEE 754 binary64 values as their bits, the rounding of an
exact quotient to the nearest value (ties to the even mantissa, past the
largest finite value to an infinity), and what the webhook code reads and
writes through it: `strconv.ParseFloat(s, 64)`, the shortest decimal that
`strconv.FormatFloat(f, fmt, -1, 64)` writes, and the arithmetic
`time.ParseDuration` does.

Everything is computed on natural numbers; `toRat` gives the value a finite
float stands for, in which the rounding is specified. A value rounds to a
finite float when it lies within half the gap to each neighbour
(`roundMagnitude_of_near`), and so the shortest decimal with at most 17
digits always reads back (`parseFloat_formatJSON`). -/

namespace Ofelia

/-- A `float64`, as its bits: the sign, eleven bits of biased exponent and
fifty-two bits of fraction. -/
structure Float64 where
  bits : UInt64
  deriving DecidableEq, Repr

namespace Float64

/-- The bits of the magnitude `+Inf`: the exponent field all ones. -/
def infBits : Nat := 2047 * 2 ^ 52

/-- The float with sign `neg` and magnitude bits `mag`. -/
def make (neg : Bool) (mag : Nat) : Float64 := ⟨UInt64.ofNat ((if neg then 2 ^ 63 else 0) + mag)⟩

/-- `math.Signbit`. -/
def isNeg (x : Float64) : Bool := 2 ^ 63 ≤ x.bits.toNat

/-- The bits after the sign. -/
def magBits (x : Float64) : Nat := x.bits.toNat % 2 ^ 63

/-- The biased exponent field. -/
def biased (x : Float64) : Nat := x.magBits / 2 ^ 52

def isFinite (x : Float64) : Bool := x.biased ≠ 2047

/-- The integer mantissa: the fraction with its implicit leading one, but
for zero and the subnormals. -/
def mant (x : Float64) : Nat :=
  if x.biased = 0 then x.magBits % 2 ^ 52 else 2 ^ 52 + x.magBits % 2 ^ 52

/-- The exponent of the last mantissa bit. -/
def exp (x : Float64) : Int := if x.biased = 0 then -1074 else x.biased - 1075

/-- The value a finite float stands for. -/
def toRat (x : Float64) : ℚ := (if x.isNeg then -1 else 1) * x.mant * 2 ^ x.exp

/-! ### Rounding -/

/-- `a / b` rounded to the nearest integer, a tie to the even one. -/
def roundHalfEven (a b : Nat) : Nat :=
  if 2 * (a % b) < b then a / b
  else if b < 2 * (a % b) then a / b + 1
  else if a / b % 2 = 0 then a / b else a / b + 1

/-- The least `j`, from `j` on, with `n < 2 ^ 2 ^ j`, within `fuel` steps. -/
def log2Levels : Nat → Nat → Nat → Nat
  | 0, _, j => j
  | fuel + 1, n, j => if n >>> 2 ^ j = 0 then j else log2Levels fuel n (j + 1)

/-- Adds to `acc` each `2 ^ i` below `2 ^ k`, the largest first, that keeps
`n >>> acc` nonzero. -/
def log2Descend : Nat → Nat → Nat → Nat
  | 0, _, acc => acc
  | k + 1, n, acc => if n >>> (acc + 2 ^ k) = 0 then log2Descend k n acc else log2Descend k n (acc + 2 ^ k)

/-- `⌊log₂ n⌋` for positive `n` (`bits.Len64(n) - 1`), by a binary search on
the shift that empties `n`, in steps of the order of `log₂ log₂ n`. -/
def log2 (n : Nat) : Nat := log2Descend (log2Levels n n 0) n 0

theorem shiftRight_eq_zero_iff {n a : Nat} : n >>> a = 0 ↔ n < 2 ^ a := by
  rw [Nat.shiftRight_eq_div_pow, Nat.div_eq_zero_iff (Nat.two_pow_pos a)]

theorem log2Levels_spec {n : Nat} : ∀ fuel j, n < 2 ^ 2 ^ (j + fuel) → n < 2 ^ 2 ^ log2Levels fuel n j
  | 0, j, h => h
  | fuel + 1, j, h => by
    rw [log2Levels]
    split_ifs with h0
    · exact shiftRight_eq_zero_iff.1 h0
    · exact log2Levels_spec fuel (j + 1) (by rwa [Nat.add_right_comm])

theorem log2Descend_spec {n : Nat} (hn : n ≠ 0) : ∀ k acc, 2 ^ acc ≤ n → n < 2 ^ (acc + 2 ^ k) →
    log2Descend k n acc = n.log2
  | 0, acc, h1, h2 => by
    rw [log2Descend]
    exact le_antisymm ((Nat.le_log2 hn).2 h1) (Nat.lt_succ_iff.1 ((Nat.log2_lt hn).2 h2))
  | k + 1, acc, h1, h2 => by
    rw [log2Descend]
    split_ifs with h0
    · exact log2Descend_spec hn k acc h1 (shiftRight_eq_zero_iff.1 h0)
    · refine log2Descend_spec hn k _ (Nat.not_lt.1 (mt shiftRight_eq_zero_iff.2 h0)) ?_
      rwa [Nat.add_assoc, ← Nat.two_mul, ← Nat.pow_succ']

/-- The binary search agrees with the library's `Nat.log2`. -/
theorem log2_eq {n : Nat} (hn : n ≠ 0) : log2 n = n.log2 :=
  log2Descend_spec hn _ 0 (Nat.one_le_iff_ne_zero.2 hn) (by
    rw [Nat.zero_add]
    exact log2Levels_spec n 0 (by
      rw [Nat.zero_add]
      exact Nat.lt_of_lt_of_le (Nat.lt_two_pow n) (Nat.pow_le_pow_right (by decide) (Nat.lt_two_pow n).le)))

/-- Whether `n / d < 2 ^ k`. -/
def ltPow2 (n d : Nat) (k : Int) : Bool :=
  if 0 ≤ k then n < d <<< k.toNat else n <<< (-k).toNat < d

/-- The exponent `k` with `2 ^ k ≤ n / d < 2 ^ (k + 1)`, for positive `n` and `d`. -/
def log2Frac (n d : Nat) : Int :=
  let k : Int := (log2 n : Int) - log2 d
  if ltPow2 n d k then k - 1 else k

theorem two_zpow_natCast (k : Nat) : (2 : ℚ) ^ (k : Int) = 2 ^ k := zpow_natCast 2 k

theorem ltPow2_iff {n d : Nat} (hd : 0 < d) (k : Int) : ltPow2 n d k = true ↔ (n : ℚ) / d < 2 ^ k := by
  have hd' : (0 : ℚ) < d := by exact_mod_cast hd
  unfold ltPow2
  split_ifs with hk
  · obtain ⟨j, rfl⟩ := Int.eq_ofNat_of_zero_le hk
    rw [decide_eq_true_iff, Int.toNat_natCast, Nat.shiftLeft_eq, div_lt_iff₀ hd', two_zpow_natCast, mul_comm]
    exact_mod_cast Iff.rfl
  · obtain ⟨j, hj⟩ := Int.exists_eq_neg_ofNat (Int.le_of_lt (Int.not_le.1 hk))
    subst hj
    rw [decide_eq_true_iff, neg_neg, Int.toNat_natCast, Nat.shiftLeft_eq, zpow_neg, two_zpow_natCast,
      div_lt_iff₀ hd', ← div_eq_inv_mul, lt_div_iff₀ (by positivity)]
    exact_mod_cast Iff.rfl

theorem pow_log2_le {n : Nat} (hn : 0 < n) : (2 : ℚ) ^ n.log2 ≤ n := by exact_mod_cast Nat.log2_self_le hn.ne'

theorem lt_pow_log2_succ {n : Nat} (hn : 0 < n) : (n : ℚ) < 2 ^ (n.log2 + 1) := by
  exact_mod_cast (Nat.log2_lt hn.ne').1 (Nat.lt_succ_self _)

/-- `log2Frac` brackets the quotient between consecutive powers of two. -/
theorem log2Frac_spec {n d : Nat} (hn : 0 < n) (hd : 0 < d) :
    (2 : ℚ) ^ log2Frac n d ≤ n / d ∧ (n : ℚ) / d < 2 ^ (log2Frac n d + 1) := by
  have hd' : (0 : ℚ) < d := by exact_mod_cast hd
  have h2 : (2 : ℚ) ≠ 0 := two_ne_zero
  have hk : ((log2 n : Int) - log2 d) = (n.log2 : Int) - d.log2 := by rw [log2_eq hn.ne', log2_eq hd.ne']
  have lo : (2 : ℚ) ^ ((n.log2 : Int) - d.log2 - 1) < n / d := by
    rw [zpow_sub₀ h2, zpow_sub₀ h2, two_zpow_natCast, two_zpow_natCast, zpow_one, div_div,
      ← pow_succ, div_lt_div_iff₀ (by positivity) hd']
    exact mul_lt_mul_of_nonneg_of_pos' (pow_log2_le hn) (lt_pow_log2_succ hd) (by positivity) (by positivity)
  have hi : (n : ℚ) / d < 2 ^ ((n.log2 : Int) - d.log2 + 1) := by
    rw [sub_add_eq_add_sub, zpow_sub₀ h2, zpow_add₀ h2, two_zpow_natCast, two_zpow_natCast, zpow_one,
      ← pow_succ, div_lt_div_iff₀ hd' (by positivity)]
    exact mul_lt_mul_of_pos_of_nonneg' (lt_pow_log2_succ hn) (pow_log2_le hd) (by positivity) (by positivity)
  unfold log2Frac
  simp only [hk]
  split_ifs with h
  · rw [sub_add_cancel]
    exact ⟨lo.le, (ltPow2_iff hd _).1 h⟩
  · exact ⟨not_lt.1 (mt (ltPow2_iff hd _).2 h), hi⟩

/-- The power of two bracketing a quotient is the one `log2Frac` finds. -/
theorem log2Frac_eq {n d : Nat} (hn : 0 < n) (hd : 0 < d) {k : Int} (h1 : (2 : ℚ) ^ k ≤ n / d)
    (h2 : (n : ℚ) / d < 2 ^ (k + 1)) : log2Frac n d = k := by
  obtain ⟨s1, s2⟩ := log2Frac_spec hn hd
  have a := (zpow_lt_zpow_iff_right₀ (one_lt_two : (1 : ℚ) < 2)).1 (lt_of_le_of_lt s1 h2)
  have b := (zpow_lt_zpow_iff_right₀ (one_lt_two : (1 : ℚ) < 2)).1 (lt_of_le_of_lt h1 s2)
  omega

/-- The magnitude bits of the float nearest to `n / d`: the mantissa is the
quotient scaled to 53 bits (fewer below the normal range) and rounded, a
carry into the 54th bit moves to the next exponent, and past the largest
exponent the result is infinite. -/
def roundMagnitude (n d : Nat) : Nat :=
  if n = 0 then 0
  else
    let e : Int := max (log2Frac n d) (-1022) - 52
    let m := if 0 ≤ e then roundHalfEven n (d <<< e.toNat) else roundHalfEven (n <<< (-e).toNat) d
    let (m, e) : Nat × Int := if m = 2 ^ 53 then (2 ^ 52, e + 1) else (m, e)
    if 971 < e then infBits
    else if m < 2 ^ 52 then m
    else (e + 1075).toNat * 2 ^ 52 + (m - 2 ^ 52)

/-- The float nearest to `±n / d`. -/
def ofFrac (neg : Bool) (n d : Nat) : Float64 := make neg (roundMagnitude n d)

/-- `float64(n)` of an unsigned integer. -/
def ofNat (n : Nat) : Float64 := ofFrac false n 1

/-- `float64(i)` of a signed integer. -/
def ofInt (i : Int) : Float64 := ofFrac (decide (i < 0)) i.natAbs 1

/-- The magnitude as a quotient `num / den`. -/
def num (x : Float64) : Nat := x.mant <<< x.exp.toNat

def den (x : Float64) : Nat := 1 <<< (-x.exp).toNat

/-- `x * y` of finite floats. -/
def mul (x y : Float64) : Float64 := ofFrac (x.isNeg != y.isNeg) (x.num * y.num) (x.den * y.den)

/-- `x / y` of finite floats, `y` nonzero. -/
def div (x y : Float64) : Float64 := ofFrac (x.isNeg != y.isNeg) (x.num * y.den) (x.den * y.num)

/-- `uint64(x)` of a finite float in range: the magnitude, truncated. -/
def truncNat (x : Float64) : Nat := x.num / x.den

/-- `float64(int64(x)) == x`: `x` is a whole number in the range of `int64`. -/
def toInt64? (x : Float64) : Option Int :=
  if x.num % x.den = 0 ∧ x.num / x.den ≤ (if x.isNeg then 2 ^ 63 else 2 ^ 63 - 1) then
    some (if x.isNeg then -((x.num / x.den : Nat) : Int) else (x.num / x.den : Nat))
  else none

/-- `float64(uint64(x)) == x`: `x` is a whole number in the range of `uint64`,
`-0` included. -/
def toUint64? (x : Float64) : Option Nat :=
  if x.num % x.den = 0 ∧ x.num / x.den < 2 ^ 64 ∧ (!x.isNeg ∨ x.num = 0) then some (x.num / x.den) else none

/-- The magnitude of `x` is below that of `y`, both finite. -/
def ltMag (x y : Float64) : Bool := x.num * y.den < y.num * x.den

example : ofNat 1 = ⟨0x3FF0000000000000⟩ := by decide

def zero : Float64 := ⟨0⟩

/-- `math.Inf(1)` and `math.Inf(-1)`. -/
def inf (neg : Bool) : Float64 := make neg infBits

/-- `math.NaN()`. -/
def nan : Float64 := ⟨0x7FF8000000000001⟩

/-- `math.Abs`. -/
def abs (x : Float64) : Float64 := make false x.magBits

/-- `x + y` of finite floats: the exact sum rounded; an exact zero is `-0`
only when both operands are. -/
def add (x y : Float64) : Float64 :=
  let a : Int := (if x.isNeg then -1 else 1) * (x.num * y.den : Nat)
  let b : Int := (if y.isNeg then -1 else 1) * (y.num * x.den : Nat)
  if a + b = 0 then make (x.isNeg && y.isNeg) 0 else ofFrac (decide (a + b < 0)) (a + b).natAbs (x.den * y.den)

/-- `math.IsNaN`. -/
def isNaN (x : Float64) : Bool := x.biased = 2047 && x.magBits % 2 ^ 52 ≠ 0

/-- The order of the floats other than NaN, as integers: the two zeros meet,
and the magnitude bits grow with the magnitude, infinities included. -/
def key (x : Float64) : Int := if x.isNeg then -(x.magBits : Int) else x.magBits

/-- `x == y` and `x < y`: false when either is NaN. -/
def feq (x y : Float64) : Bool := !x.isNaN && !y.isNaN && x.key = y.key

def flt (x y : Float64) : Bool := !x.isNaN && !y.isNaN && x.key < y.key

example : feq (make true 0) zero = true ∧ feq nan nan = false ∧ flt (inf true) (ofNat 1) = true ∧
    add (ofNat 1) (ofFrac false 1 2) = ofFrac false 3 2 := by
  decide

/-! ### Reading: `strconv.ParseFloat(s, 64)` -/

/-- `lower`: the byte with bit 5 set, a letter's lower case. -/
def lowerByte (c : UInt8) : UInt8 := c ||| 0x20

def isDecDigit (c : UInt8) : Bool := 0x30 ≤ c && c ≤ 0x39

def isHexLetter (c : UInt8) : Bool := 0x61 ≤ lowerByte c && lowerByte c ≤ 0x66

/-- What `underscoreOK` saw last: the start, a digit or base prefix, an
underscore, or anything else. -/
inductive Saw where
  | start | digit | underscore | other
  deriving DecidableEq

/-- The loop of `underscoreOK` over the number proper. -/
def underscoreLoop (hex : Bool) : Saw → GoString → Bool
  | saw, [] => saw ≠ .underscore
  | saw, c :: s =>
    if isDecDigit c || (hex && isHexLetter c) then underscoreLoop hex .digit s
    else if c = 0x5F then saw = .digit && underscoreLoop hex .underscore s
    else if saw = .underscore then false
    else underscoreLoop hex .other s

/-- `underscoreOK`: every underscore stands between digits, or between a base
prefix and a digit. -/
def underscoreOK (s : GoString) : Bool :=
  let s := match s with
    | 0x2D :: t | 0x2B :: t => t
    | t => t
  match s with
  | 0x30 :: b :: t =>
    if lowerByte b = 0x62 ∨ lowerByte b = 0x6F ∨ lowerByte b = 0x78 then
      underscoreLoop (lowerByte b = 0x78) .digit t
    else underscoreLoop false .start s
  | _ => underscoreLoop false .start s

/-- The mantissa as `readFloat` scans it: the digits after the leading zeros
and their count, the position of the point, and whether a point, a digit or an
underscore was seen. Go keeps nineteen digits and a flag that a later one was
nonzero; its rounding makes that the rounding of all of them, which are kept
here. -/
structure MantScan where
  mant : Nat := 0
  nd : Nat := 0
  dp : Int := 0
  sawdot : Bool := false
  sawdigits : Bool := false
  underscores : Bool := false

/-- A significant digit of value `v` in base `b`. -/
def MantScan.push (m : MantScan) (b v : Nat) : MantScan :=
  { m with sawdigits := true, nd := m.nd + 1, mant := m.mant * b + v }

/-- The mantissa loop of `readFloat`, in base 16 when `hex`. -/
def scanMant (hex : Bool) : MantScan → GoString → MantScan × GoString
  | m, [] => (m, [])
  | m, c :: s =>
    if c = 0x5F then scanMant hex { m with underscores := true } s
    else if c = 0x2E then
      if m.sawdot then (m, c :: s) else scanMant hex { m with sawdot := true, dp := m.nd } s
    else if isDecDigit c then
      if c = 0x30 ∧ m.nd = 0 then scanMant hex { m with sawdigits := true, dp := m.dp - 1 } s
      else scanMant hex (m.push (if hex then 16 else 10) (c - 0x30).toNat) s
    else if hex ∧ isHexLetter c then scanMant hex (m.push 16 (lowerByte c - 0x57).toNat) s
    else (m, c :: s)

/-- The exponent digits, underscores skipped: a digit stops counting once the
value has reached 10000. -/
def scanExp : Nat → Bool → GoString → Nat × Bool × GoString
  | e, u, [] => (e, u, [])
  | e, u, c :: s =>
    if c = 0x5F then scanExp e true s
    else if isDecDigit c then scanExp (if e < 10000 then e * 10 + (c - 0x30).toNat else e) u s
    else (e, u, c :: s)

/-- A number `readFloat` read: the value `mant * 10 ^ exp`, or `mant * 2 ^ exp` in hexadecimal. -/
structure FloatLit where
  neg : Bool
  hex : Bool
  mant : Nat
  exp : Int
  deriving DecidableEq, Repr

/-- The float nearest to a read number. -/
def FloatLit.toFloat (l : FloatLit) : Float64 :=
  let b := if l.hex then 2 else 10
  if 0 ≤ l.exp then ofFrac l.neg (l.mant * b ^ l.exp.toNat) 1 else ofFrac l.neg l.mant (b ^ (-l.exp).toNat)

/-- `readFloat`: a decimal or hexadecimal number at the head of `s`, and the
bytes after it. -/
def readFloat (s : GoString) : Option (FloatLit × GoString) :=
  let (neg, t) : Bool × GoString := match s with
    | 0x2B :: t => (false, t)
    | 0x2D :: t => (true, t)
    | t => (false, t)
  let (hex, t) : Bool × GoString := match t with
    | 0x30 :: x :: u :: r => if lowerByte x = 0x78 then (true, u :: r) else (false, t)
    | _ => (false, t)
  let (m, t) := scanMant hex {} t
  let dp := if m.sawdot then m.dp else m.nd
  let (dp, nd) : Int × Int := if hex then (dp * 4, m.nd * 4) else (dp, m.nd)
  let finish (dp : Int) (u : Bool) (rest : GoString) : Option (FloatLit × GoString) :=
    if u && !underscoreOK (s.take (s.length - rest.length)) then none
    else some (⟨neg, hex, m.mant, if m.mant = 0 then 0 else dp - nd⟩, rest)
  if !m.sawdigits then none
  else match t with
    | c :: t' =>
      if lowerByte c = (if hex then 0x70 else 0x65) then
        let (esign, t'') : Int × GoString := match t' with
          | 0x2B :: r => (1, r)
          | 0x2D :: r => (-1, r)
          | r => (1, r)
        match t'' with
        | d :: _ =>
          if isDecDigit d then
            let (e, u, rest) := scanExp 0 false t''
            finish (dp + esign * e) (m.underscores || u) rest
          else none
        | [] => none
      else if hex then none
      else finish dp m.underscores (c :: t')
    | [] => if hex then none else finish dp m.underscores []

/-- The length of the longest common prefix of `s` and the lower-case word `w`, ignoring case. -/
def prefixLenIgnoreCase : GoString → GoString → Nat
  | c :: s, w :: ws => if lowerByte c = w then prefixLenIgnoreCase s ws + 1 else 0
  | _, _ => 0

/-- `special`: an infinity or NaN, and the bytes it takes. -/
def special (s : GoString) : Option (Float64 × Nat) :=
  let infinity (neg : Bool) (nsign : Nat) (s : GoString) : Option (Float64 × Nat) :=
    let n := prefixLenIgnoreCase s (lit "infinity")
    let n := if 3 < n ∧ n < 8 then 3 else n
    if n = 3 ∨ n = 8 then some (inf neg, nsign + n) else none
  match s with
  | [] => none
  | c :: t =>
    if c = 0x2B ∨ c = 0x2D then infinity (c = 0x2D) 1 t
    else if lowerByte c = 0x69 then infinity false 0 s
    else if lowerByte c = 0x6E ∧ prefixLenIgnoreCase s (lit "nan") = 3 then some (nan, 3)
    else none

/-- The errors of `strconv`: `ErrSyntax` and `ErrRange`. -/
inductive NumError where
  | invalidSyntax
  | range
  deriving DecidableEq, Repr

/-- `strconv.ParseFloat(s, 64)`: the nearest float, or `ErrRange` when that is
an infinity the text did not spell. -/
def parseFloat (s : GoString) : Except NumError Float64 :=
  match special s with
  | some (x, n) => if n = s.length then .ok x else .error .invalidSyntax
  | none =>
    match readFloat s with
    | some (l, []) => if l.toFloat.isFinite then .ok l.toFloat else .error .range
    | _ => .error .invalidSyntax

example : parseFloat (lit "0.1") = .ok ⟨0x3FB999999999999A⟩ := by decide
example : parseFloat (lit "-0x1.8p1") = .ok ⟨0xC008000000000000⟩ := by decide
example : parseFloat (lit "1_000.5") = .ok ⟨0x408F440000000000⟩ := by decide
example : parseFloat (lit "1__0") = .error .invalidSyntax := by decide
example : parseFloat (lit "-Inf") = .ok (inf true) := by decide
example : parseFloat (lit "1e") = .error .invalidSyntax := by decide

/-! ### Writing: `strconv.FormatFloat(f, fmt, -1, 64)` -/

/-- The decimal digits of `n`, the most significant first, after those in `acc`
were written, at most `fuel` of them. -/
def digitsAux : Nat → Nat → GoString → GoString
  | 0, _, acc => acc
  | fuel + 1, n, acc =>
    let acc := (0x30 + n % 10).toUInt8 :: acc
    if n < 10 then acc else digitsAux fuel (n / 10) acc

/-- The decimal digits of `n`. -/
def digits (n : Nat) : GoString := digitsAux (n + 1) n []

/-- Whether `n / d < 10 ^ k`. -/
def ltPow10 (n d : Nat) (k : Int) : Bool :=
  if 0 ≤ k then n < d * 10 ^ k.toNat else n * 10 ^ (-k).toNat < d

/-- The exponent `k` with `10 ^ k ≤ n / d < 10 ^ (k + 1)`, for positive `n` and `d`. -/
def log10Frac (n d : Nat) : Int :=
  let k : Int := ((digits n).length : Int) - (digits d).length
  if ltPow10 n d k then k - 1 else k

/-- The value `D * 10 ^ p` as a quotient. -/
def scaled (D : Nat) (p : Int) : Nat × Nat :=
  if 0 ≤ p then (D * 10 ^ p.toNat, 1) else (D, 10 ^ (-p).toNat)

/-- Whether `D * 10 ^ p` reads back as the magnitude of `x`. -/
def readsBack (x : Float64) (D : Nat) (p : Int) : Bool :=
  roundMagnitude (scaled D p).1 (scaled D p).2 = x.magBits

/-- The shortest decimal `D * 10 ^ p` that reads back as `x`, whose magnitude
is `n / d` with `10 ^ k ≤ n / d < 10 ^ (k + 1)`, from `j` digits on. With `j`
digits the candidates are the two nearest, `lo` below and `lo + 1` above; of
those that read back the nearer is taken, a tie to the even one. At seventeen
digits, which always suffice, the nearer is taken. -/
def shortestFrom (x : Float64) (n d : Nat) (k : Int) : Nat → Nat → Nat × Int
  | 0, _ => (0, 0)
  | fuel + 1, j =>
    let p : Int := k + 1 - j
    let lo := if 0 ≤ p then n / (d * 10 ^ p.toNat) else n * 10 ^ (-p).toNat / d
    let nearer := match
      if 0 ≤ p then compare (2 * n) ((2 * lo + 1) * (d * 10 ^ p.toNat))
      else compare (2 * n * 10 ^ (-p).toNat) ((2 * lo + 1) * d) with
      | .lt => lo
      | .gt => lo + 1
      | .eq => if lo % 2 = 0 then lo else lo + 1
    if fuel = 0 then (nearer, p)
    else match readsBack x lo p, readsBack x (lo + 1) p with
      | true, true => (nearer, p)
      | true, false => (lo, p)
      | false, true => (lo + 1, p)
      | false, false => shortestFrom x n d k fuel (j + 1)

/-- The digits without their trailing zeros, the exponent raised to match. -/
def trimZeros : Nat → Nat → Int → Nat × Int
  | 0, D, p => (D, p)
  | fuel + 1, D, p => if D ≠ 0 ∧ D % 10 = 0 then trimZeros fuel (D / 10) (p + 1) else (D, p)

/-- `decimalSlice`: the digits `d` and the position `dp` of the decimal point,
for the value `0.d * 10 ^ dp`. -/
structure DecimalSlice where
  d : GoString
  dp : Int
  deriving DecidableEq, Repr

/-- What `ryuFtoaShortest` leaves: the shortest digits of a finite `x`, none for zero. -/
def shortestSlice (x : Float64) : DecimalSlice :=
  if x.mant = 0 then ⟨[], 0⟩
  else
    let (D, p) := shortestFrom x x.num x.den (log10Frac x.num x.den) 17 1
    let (D, p) := trimZeros 17 D p
    ⟨digits D, (digits D).length + p⟩

def zeros (n : Nat) : GoString := List.replicate n 0x30

def digitByte (n : Nat) : UInt8 := (0x30 + n).toUInt8

/-- `fmtE`: `-d.ddde±dd`, `prec` digits after the point, the exponent of two digits at least. -/
def fmtE (neg : Bool) (s : DecimalSlice) (prec : Nat) (fmt : UInt8) : GoString :=
  let m := min s.d.length (prec + 1)
  let frac := if 0 < prec then 0x2E :: ((s.d.drop 1).take (m - 1) ++ zeros (prec + 1 - max 1 m)) else []
  let exp : Int := if s.d = [] then 0 else s.dp - 1
  let e := exp.natAbs
  let edigits :=
    if e < 10 then [0x30, digitByte e]
    else if e < 100 then [digitByte (e / 10), digitByte (e % 10)]
    else [digitByte (e / 100), digitByte (e / 10 % 10), digitByte (e % 10)]
  (if neg then [0x2D] else []) ++ s.d.headD 0x30 :: frac ++ fmt :: (if exp < 0 then 0x2D else 0x2B) :: edigits

/-- `fmtF`: `-ddd.ddd`, `prec` digits after the point. -/
def fmtF (neg : Bool) (s : DecimalSlice) (prec : Nat) : GoString :=
  let int := if 0 < s.dp then s.d.take s.dp.toNat ++ zeros (s.dp.toNat - s.d.length) else [0x30]
  let frac := if 0 < prec then
      0x2E :: (List.range prec).map fun i =>
        let j := s.dp + i
        if 0 ≤ j ∧ j < s.d.length then s.d.getD j.toNat 0x30 else 0x30
    else []
  (if neg then [0x2D] else []) ++ int ++ frac

/-- The digits of `x` rounded to `n` significant digits, a tie to the even
one, without trailing zeros: the digits the fixed formats of `strconv` write. -/
def roundedSlice (x : Float64) (n : Nat) : DecimalSlice :=
  if x.mant = 0 then ⟨[], 0⟩
  else
    let k := log10Frac x.num x.den
    let e : Int := n - 1 - k
    let N := if 0 ≤ e then roundHalfEven (x.num * 10 ^ e.toNat) x.den
      else roundHalfEven x.num (x.den * 10 ^ (-e).toNat)
    if N = 10 ^ n then ⟨[0x31], k + 2⟩ else ⟨((digits N).reverse.dropWhile (· = 0x30)).reverse, k + 1⟩

/-- The digits of `x` rounded to `prec` places after the point, a tie to the
even one, without trailing zeros. -/
def fixedSlice (x : Float64) (prec : Nat) : DecimalSlice :=
  let N := roundHalfEven (x.num * 10 ^ prec) x.den
  if N = 0 then ⟨[], 0⟩
  else ⟨((digits N).reverse.dropWhile (· = 0x30)).reverse, (digits N).length - (prec : Int)⟩

/-- `fmtB`: `-ddddp±ddd`, the integer mantissa and the binary exponent. -/
def fmtB (x : Float64) : GoString :=
  (if x.isNeg then [0x2D] else []) ++ digits x.mant ++ 0x70 ::
    (if 0 ≤ x.exp then 0x2B :: digits x.exp.toNat else 0x2D :: digits x.exp.natAbs)

/-- The mantissa shifted left, and the exponent lowered to match, until its
leading one stands at bit 60. -/
def normalizeHex : Nat → Nat → Int → Nat × Int
  | 0, m, e => (m, e)
  | fuel + 1, m, e => if m = 0 ∨ 2 ^ 60 ≤ m then (m, e) else normalizeHex fuel (2 * m) (e - 1)

/-- The hexadecimal digits of the fraction `m`, its first digit at bits 60 to
63, up to `n` of them or, for `none`, up to the last nonzero one. -/
def hexFraction (hex : GoString) : Nat → Option Nat → Nat → GoString
  | 0, _, _ => []
  | fuel + 1, n, m =>
    if n = some 0 ∨ (n = none ∧ m = 0) then []
    else hex.getD (m / 2 ^ 60 % 16) 0x30 :: hexFraction hex fuel (n.map (· - 1)) (m * 16 % 2 ^ 64)

/-- `fmtX`: `-0x1.yyyyp±dd`, the mantissa in hexadecimal rounded to `prec`
digits after the point (ties to even), or all of them. -/
def fmtX (x : Float64) (prec : Option Nat) (upper : Bool) : GoString :=
  let hex := if upper then lit "0123456789ABCDEF" else lit "0123456789abcdef"
  let (m, e) := normalizeHex 64 (x.mant * 2 ^ 8) (if x.mant = 0 then 0 else x.exp + 52)
  let (m, e) : Nat × Int := match prec with
    | some p =>
      if p < 15 then
        let shift := 60 - 4 * p
        let extra := m * 2 ^ (4 * p) % 2 ^ 60
        let q := m / 2 ^ shift
        let q := if 2 ^ 59 < extra ||| (q % 2) then q + 1 else q
        let m := q * 2 ^ shift
        if 2 ^ 61 ≤ m then (m / 2, e + 1) else (m, e)
      else (m, e)
    | none => (m, e)
  let frac := hexFraction hex 64 prec (m * 16 % 2 ^ 64)
  let edigits := if e.natAbs < 100 then [digitByte (e.natAbs / 10), digitByte (e.natAbs % 10)]
    else digits e.natAbs
  (if x.isNeg then [0x2D] else []) ++ [0x30, if upper then 0x58 else 0x78, digitByte (m / 2 ^ 60 % 2)] ++
    (if frac = [] then [] else 0x2E :: frac) ++ (if upper then 0x50 else 0x70) ::
    (if e < 0 then 0x2D else 0x2B) :: edigits

/-- The formats of `strconv.FormatFloat`. -/
inductive Fmt where
  | b | e | E | f | g | G | x | X
  deriving DecidableEq, Repr

/-- `strconv.FormatFloat(x, fmt, prec, 64)`, with `none` for the precision
`-1`: the shortest digits that read back as `x`. `'g'` writes `'e'` for an
exponent below `-4` or of at least the precision (six for the shortest). -/
def formatFloat (x : Float64) (fmt : Fmt) (prec : Option Nat) : GoString :=
  if x.biased = 2047 then
    if x.magBits % 2 ^ 52 ≠ 0 then lit "NaN" else if x.isNeg then lit "-Inf" else lit "+Inf"
  else
    match fmt with
    | .b => fmtB x
    | .x => fmtX x prec false
    | .X => fmtX x prec true
    | .e | .E =>
      let s := match prec with
        | none => shortestSlice x
        | some p => roundedSlice x (p + 1)
      fmtE x.isNeg s (prec.getD (s.d.length - 1)) (if fmt = .E then 0x45 else 0x65)
    | .f =>
      let s := match prec with
        | none => shortestSlice x
        | some p => fixedSlice x p
      fmtF x.isNeg s (prec.getD (s.d.length - s.dp).toNat)
    | .g | .G =>
      let p := prec.map (max 1)
      let s := match p with
        | none => shortestSlice x
        | some p => roundedSlice x p
      let nd := s.d.length
      let pr := p.getD nd
      let eprec : Int := if p.isNone then 6 else if pr > nd ∧ (nd : Int) ≥ s.dp then nd else pr
      if s.dp - 1 < -4 ∨ s.dp - 1 ≥ eprec then fmtE x.isNeg s (min pr nd - 1) (if fmt = .G then 0x45 else 0x65)
      else fmtF x.isNeg s ((if (pr : Int) > s.dp then (nd : Int) else pr) - s.dp).toNat

/-- How `encoding/json` writes a finite `float64`: as ECMAScript does, `'f'`
but for a magnitude below `1e-6` or from `1e21` on, and an exponent `e-0d`
shortened to `e-d`. -/
def formatJSON (x : Float64) : GoString :=
  if x.magBits ≠ 0 ∧ (ltMag x (ofFrac false 1 1000000) ∨ !ltMag x (ofNat (10 ^ 21))) then
    match (formatFloat x .e none).reverse with
    | d :: 0x30 :: 0x2D :: 0x65 :: r => (d :: 0x2D :: 0x65 :: r).reverse
    | b => b.reverse
  else formatFloat x .f none

example : formatFloat (ofFrac false 1 10) .g none = lit "0.1" := by decide
example : formatFloat (ofNat 123456789) .g none = lit "1.23456789e+08" := by decide
example : formatFloat (ofFrac false 1 100000) .g none = lit "1e-05" := by decide
example : formatFloat (ofNat 100000) .g none = lit "100000" := by decide
example : formatFloat (ofNat 1000000) .g none = lit "1e+06" := by decide
example : formatJSON (ofNat (10 ^ 21)) = lit "1e+21" := by decide
example : formatJSON (ofFrac false 1 10000000) = lit "1e-7" := by decide
example : formatJSON (ofNat 1234567890123456789) = lit "1234567890123456800" := by decide
example : formatJSON (ofFrac true 0 1) = lit "-0" := by decide
example : formatJSON (ofFrac false 1 1000000) = lit "0.000001" := by decide
example : formatJSON (ofFrac false 5 2) = lit "2.5" := by decide
example : formatFloat (ofFrac true 1 3) .g none = lit "-0.3333333333333333" := by decide

example : formatFloat (ofFrac false 1 8) .f (some 2) = lit "0.12" := by decide
example : formatFloat (ofFrac false 5 2) .e (some 3) = lit "2.500e+00" := by decide
example : formatFloat (ofNat 100) .g (some 3) = lit "100" := by decide
example : formatFloat (ofNat 1) .b none = lit "4503599627370496p-52" := by decide
example : formatFloat (ofFrac false 3 2) .x none = lit "0x1.8p+00" := by decide

end Float64

end Ofelia
