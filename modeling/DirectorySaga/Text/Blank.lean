/-
White space, and text without it at its ends.

`trim` removes a longest run of white space from the front and from the back and
leaves what is between as it is.
-/
import DirectorySaga.Text.Span

namespace DirectorySaga.Text

/-- The code points with the Unicode property White_Space. -/
def blankSpans : List Span :=
  [⟨0x0009, 0x000D⟩, ⟨0x0020, 0x0020⟩, ⟨0x0085, 0x0085⟩, ⟨0x00A0, 0x00A0⟩, ⟨0x1680, 0x1680⟩,
   ⟨0x2000, 0x200A⟩, ⟨0x2028, 0x2029⟩, ⟨0x202F, 0x202F⟩, ⟨0x205F, 0x205F⟩, ⟨0x3000, 0x3000⟩]

/-- Whether `c` is white space. -/
def isBlank (c : Char) : Bool := blankSpans.any (·.holds c)

/-- The list without its longest run of elements at the end that satisfy `p`. -/
def dropWhileEnd {α : Type} (p : α → Bool) : List α → List α
  | [] => []
  | a :: rest =>
    match dropWhileEnd p rest with
    | [] => if p a then [] else [a]
    | kept => a :: kept

/-- The characters without white space at either end. -/
def trimChars (cs : List Char) : List Char := dropWhileEnd isBlank (cs.dropWhile isBlank)

/-- The text without white space at either end. -/
def trim (s : String) : String := String.ofList (trimChars s.toList)

end DirectorySaga.Text
