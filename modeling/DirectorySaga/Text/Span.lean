/-
Spans of code points.

The character classes of this library are unions of a few intervals of code points,
written down as lists of spans.
-/
namespace DirectorySaga.Text

/-- The code points from `first` to `last`, both included. -/
structure Span where
  first : Nat
  last : Nat

/-- Whether the code point of `c` lies in the span. -/
def Span.holds (span : Span) (c : Char) : Bool :=
  span.first ≤ c.toNat && c.toNat ≤ span.last

end DirectorySaga.Text
