/-! Places in a text as line and column, counted from 0 and printed from 1. Columns count bytes. -/
namespace CodeWorkspace

structure Position where
  line : Nat
  column : Nat
  deriving DecidableEq, Ord, Repr, Inhabited

namespace Position

instance : LT Position where
  lt p q := p.line < q.line ∨ p.line = q.line ∧ p.column < q.column

instance : LE Position where
  le p q := p.line < q.line ∨ p.line = q.line ∧ p.column ≤ q.column

instance (p q : Position) : Decidable (p < q) :=
  inferInstanceAs (Decidable (p.line < q.line ∨ p.line = q.line ∧ p.column < q.column))

instance (p q : Position) : Decidable (p ≤ q) :=
  inferInstanceAs (Decidable (p.line < q.line ∨ p.line = q.line ∧ p.column ≤ q.column))

theorem lt_def {p q : Position} :
    p < q ↔ p.line < q.line ∨ p.line = q.line ∧ p.column < q.column := Iff.rfl

theorem le_def {p q : Position} :
    p ≤ q ↔ p.line < q.line ∨ p.line = q.line ∧ p.column ≤ q.column := Iff.rfl

/-- Editors and compilers count lines and columns from 1. -/
def render (p : Position) : String := s!"{p.line + 1}:{p.column + 1}"

end Position

/-- A stretch of text between two places; the end is not part of it. -/
structure Span where
  start : Position
  stop : Position
  deriving DecidableEq, Ord, Repr, Inhabited

namespace Span

def contains (s : Span) (p : Position) : Bool := s.start ≤ p ∧ p < s.stop

theorem contains_iff {s : Span} {p : Position} :
    s.contains p = true ↔ s.start ≤ p ∧ p < s.stop := by simp [contains]

def render (s : Span) : String := s!"{s.start.render}-{s.stop.render}"

end Span
end CodeWorkspace
