/-!
Spans of time in whole nanoseconds, and their short text with three decimals.
-/

namespace TreeLint

/-- A span of time. Its seconds fit into 64 bits wherever a function makes one. -/
structure Duration where
  nanos : Nat
  deriving DecidableEq, Repr, Inhabited

structure TimeUnit where
  nanos : Nat
  symbol : String
  deriving DecidableEq, Repr, Inhabited

namespace TimeUnit

def second : TimeUnit := { nanos := 1000000000, symbol := "s" }

def nanosecond : TimeUnit := { nanos := 1, symbol := "ns" }

/-- Every unit but the smallest, from the greatest down. -/
def large : List TimeUnit :=
  [second, { nanos := 1000000, symbol := "ms" }, { nanos := 1000, symbol := "µs" }]

end TimeUnit

/-- The quotient of two numbers rounded to the nearest; of two neighbours as near, the even one.
-/
def roundedQuotient (numerator denominator : Nat) : Nat :=
  let quotient := numerator / denominator
  let rest := numerator % denominator
  if 2 * rest < denominator ∨ (2 * rest = denominator ∧ quotient % 2 = 0) then quotient
  else quotient + 1

namespace Duration

def zero : Duration :=
  { nanos := 0 }

/-- The least number of nanoseconds whose seconds do not fit into 64 bits. -/
def bound : Nat :=
  UInt64.size * TimeUnit.second.nanos

/-- The span of so many nanoseconds, if its seconds fit. -/
def ofNanos? (nanos : Nat) : Option Duration :=
  if nanos < bound then some { nanos } else none

def of? (seconds nanos : Nat) : Option Duration :=
  ofNanos? (seconds * TimeUnit.second.nanos + nanos)

def seconds (duration : Duration) : Nat :=
  duration.nanos / TimeUnit.second.nanos

/-- The nanoseconds beyond the whole seconds. -/
def subsecond (duration : Duration) : Nat :=
  duration.nanos % TimeUnit.second.nanos

def add? (first second : Duration) : Option Duration :=
  ofNanos? (first.nanos + second.nanos)

def max (first second : Duration) : Duration :=
  if first.nanos ≤ second.nanos then second else first

/-- One of so many equal parts, rounded down. -/
def part (duration : Duration) (count : Nat) : Duration :=
  { nanos := duration.nanos / count }

def unit (duration : Duration) : TimeUnit :=
  (TimeUnit.large.find? (·.nanos ≤ duration.nanos)).getD .nanosecond

/-- The span in its greatest unit with three decimals. Rounding does not change the unit. -/
def text (duration : Duration) : String :=
  let unit := duration.unit
  let thousandths := roundedQuotient (duration.nanos * 1000) unit.nanos
  let decimals := toString (1000 + thousandths % 1000)
  toString (thousandths / 1000) ++ "." ++ String.ofList (decimals.toList.drop 1) ++ unit.symbol

end Duration

end TreeLint
