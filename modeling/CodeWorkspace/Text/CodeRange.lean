/-! Sets of characters as ascending ranges of code points, both ends included. -/
namespace CodeWorkspace.Text

abbrev CodeRanges := List (Nat × Nat)

namespace CodeRanges

def contains : CodeRanges → Nat → Bool
  | [], _ => false
  | (first, last) :: rest, n => if n < first then false else n ≤ last || contains rest n

end CodeRanges
end CodeWorkspace.Text
