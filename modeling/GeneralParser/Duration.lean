/-!
# Durations

Spans of time, written exactly.
-/

namespace GeneralParser

/-- A span of time in nanoseconds. -/
structure Duration where
  nanoseconds : Nat
  deriving DecidableEq, Repr

namespace Duration

/-- The decimals of `n / 10 ^ digits` after the point, without zeros at the end. -/
def decimals (n digits : Nat) : List Char :=
  let written := Nat.toDigits 10 n
  let padded := List.replicate (digits - written.length) '0' ++ written
  (padded.reverse.dropWhile (· = '0')).reverse

/-- `n / 10 ^ digits` in decimal notation, exactly and in as few digits as that takes. -/
def decimal (n digits : Nat) : String :=
  let unit := Nat.pow 10 digits
  let whole := toString (n / unit)
  match decimals (n % unit) digits with
  | [] => whole
  | ds => whole ++ "." ++ String.ofList ds

/-- How a duration is written: exactly, in the largest unit of which it has one or more. -/
def render (d : Duration) : String :=
  let n := d.nanoseconds
  if 1000000000 ≤ n then decimal n 9 ++ "s"
  else if 1000000 ≤ n then decimal n 6 ++ "ms"
  else if 1000 ≤ n then decimal n 3 ++ "µs"
  else decimal n 0 ++ "ns"

end Duration

end GeneralParser
