/-! Lengths of time in nanoseconds, and how they are printed. -/
namespace CodeWorkspace

structure Duration where
  nanoseconds : Nat
  deriving DecidableEq, Repr, Inhabited

namespace Duration

def ofSeconds (n : Nat) : Duration := ⟨n * 1000000000⟩

/-- The lowest `width` decimal digits of a number, leading zeros included. -/
def digits : Nat → Nat → List Char
  | 0, _ => []
  | width + 1, n => digits width (n / 10) ++ [Char.ofNat (48 + n % 10)]

/-- A part of a unit that has `width` digits behind the point, without trailing zeros. -/
def fraction (width part : Nat) : String :=
  match (digits width part).reverse.dropWhile (· = '0') with
  | [] => ""
  | shown => "." ++ String.ofList shown.reverse

/-- The value in the largest unit that leaves a whole part. -/
def render (d : Duration) : String :=
  let inUnit (size width : Nat) (unit : String) : String :=
    toString (d.nanoseconds / size) ++ fraction width (d.nanoseconds % size) ++ unit
  if 1000000000 ≤ d.nanoseconds then inUnit 1000000000 9 "s"
  else if 1000000 ≤ d.nanoseconds then inUnit 1000000 6 "ms"
  else if 1000 ≤ d.nanoseconds then inUnit 1000 3 "µs"
  else inUnit 1 0 "ns"

end Duration
end CodeWorkspace
