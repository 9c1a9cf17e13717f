import Ofelia.Go.Float

/-! `time.ParseDuration`, which reads a webhook's `retry.backoff`. The accepted
syntax is `[-+]?([0-9]*(\.[0-9]*)?[a-z]+)+` with units `ns`, `us`, `µs`, `μs`,
`ms`, `s`, `m`, `h`. The total is kept in a `uint64`, so a sum that reaches
`2 ^ 64` wraps as it does in Go. The nanoseconds of a fractional part are
computed in `float64`, as Go does: `uint64(float64(f) * (float64(unit) / scale))`,
each operation rounded, which can fall a nanosecond short of the exact
quotient. -/

namespace Ofelia

/-- The errors of `time.ParseDuration`: `"time: invalid duration " + quote(orig)`,
`"time: missing unit in duration " + quote(orig)` and
`"time: unknown unit " + quote(u) + " in duration " + quote(orig)`. -/
inductive DurationError where
  | invalid (orig : GoString)
  | missingUnit (orig : GoString)
  | unknownUnit (unit orig : GoString)
  deriving DecidableEq, Repr

namespace Duration

def nanosecond : Nat := 1

def microsecond : Nat := 1000 * nanosecond

def millisecond : Nat := 1000 * microsecond

def second : Nat := 1000 * millisecond

def minute : Nat := 60 * second

def hour : Nat := 60 * minute

/-- `unitMap`. -/
def unitMap (u : GoString) : Option Nat :=
  if u = lit "ns" then some nanosecond
  else if u = lit "us" ∨ u = lit "µs" ∨ u = lit "μs" then some microsecond
  else if u = lit "ms" then some millisecond
  else if u = lit "s" then some second
  else if u = lit "m" then some minute
  else if u = lit "h" then some hour
  else none

def isDigit (c : UInt8) : Bool := 0x30 ≤ c && c ≤ 0x39

/-- `leadingInt`: the leading digits as a number at most `2 ^ 63`, or `none` on overflow. -/
def leadingInt : GoString → Nat → Option (Nat × GoString)
  | [], x => some (x, [])
  | c :: s, x =>
    if isDigit c then
      if 2 ^ 63 / 10 < x then none
      else
        let x' := x * 10 + (c.toNat - 0x30)
        if 2 ^ 63 < x' then none else leadingInt s x'
    else some (x, c :: s)

/-- `leadingFraction`: digits after the point, read until the value would pass
`2 ^ 63`; the `float64` `scale` is multiplied by ten for each digit read. -/
def leadingFraction : GoString → Nat → Float64 → Bool → Nat × Float64 × GoString
  | [], x, scale, _ => (x, scale, [])
  | c :: s, x, scale, overflow =>
    if isDigit c then
      if overflow || (2 ^ 63 - 1) / 10 < x then leadingFraction s x scale true
      else
        let y := x * 10 + (c.toNat - 0x30)
        if 2 ^ 63 < y then leadingFraction s x scale true
        else leadingFraction s y (scale.mul (.ofNat 10)) false
    else (x, scale, c :: s)

/-- `uint64(float64(f) * (float64(unit) / scale))`. -/
def fractionNanos (f unit : Nat) (scale : Float64) : Nat :=
  ((Float64.ofNat f).mul ((Float64.ofNat unit).div scale)).truncNat

/-- The unit: every byte up to the next digit or point. -/
def unitSpan : GoString → GoString × GoString
  | [] => ([], [])
  | c :: s => if c = 0x2E ∨ isDigit c then ([], c :: s) else
    let (u, r) := unitSpan s; (c :: u, r)

/-- One pass of the loop `for s != ""`: a number, an optional fraction and a
unit, added to the running `uint64` total `d`. Each pass reads at least two
bytes, so `s.length` passes always suffice. -/
def loop (orig : GoString) : Nat → GoString → Nat → Except DurationError Nat
  | _, [], d => .ok d
  | 0, _ :: _, _ => .error (.invalid orig)
  | fuel + 1, c :: s, d =>
    if ¬ (c = 0x2E ∨ isDigit c) then .error (.invalid orig)
    else match leadingInt (c :: s) 0 with
      | none => .error (.invalid orig)
      | some (v, s1) =>
        let pre := s1.length ≠ (c :: s).length
        let (f, scale, s2, post) : Nat × Float64 × GoString × Bool := match s1 with
          | 0x2E :: r =>
            let (f, scale, r') := leadingFraction r 0 (.ofNat 1) false
            (f, scale, r', r'.length ≠ r.length)
          | r => (0, .ofNat 1, r, false)
        if ¬ pre ∧ ¬ post then .error (.invalid orig)
        else
          let (u, s3) := unitSpan s2
          if u = [] then .error (.missingUnit orig)
          else match unitMap u with
            | none => .error (.unknownUnit u orig)
            | some unit =>
              if 2 ^ 63 / unit < v then .error (.invalid orig)
              else
                let v := v * unit + (if 0 < f then fractionNanos f unit scale else 0)
                if 0 < f ∧ 2 ^ 63 < v then .error (.invalid orig)
                else
                  let d := (d + v) % 2 ^ 64
                  if 2 ^ 63 < d then .error (.invalid orig) else loop orig fuel s3 d

end Duration

open Duration in
/-- `time.ParseDuration`. -/
def parseDuration (orig : GoString) : Except DurationError GoInt :=
  let (neg, s) : Bool × GoString := match orig with
    | 0x2D :: r => (true, r)
    | 0x2B :: r => (false, r)
    | r => (false, r)
  if s = lit "0" then .ok 0
  else if s = [] then .error (.invalid orig)
  else match loop orig s.length s 0 with
    | .error e => .error e
    | .ok d =>
      if neg then .ok (GoInt.ofInt (-(GoInt.ofInt d).val))
      else if 2 ^ 63 - 1 < d then .error (.invalid orig)
      else .ok (GoInt.ofInt d)

example : parseDuration (lit "1h30m") = .ok (GoInt.ofInt 5400000000000) := by decide

example : parseDuration (lit "-1.5µs") = .ok (GoInt.ofInt (-1500)) := by decide

example : parseDuration (lit "10") = .error (.missingUnit (lit "10")) := by decide

set_option maxRecDepth 4000 in
/-- The fraction is computed in `float64`: `0.01866627527750h` is exactly
`67198590999ns`, one more than Go reads. -/
example : parseDuration (lit "0.01866627527750h") = .ok (GoInt.ofInt 67198590998) := by decide

end Ofelia
