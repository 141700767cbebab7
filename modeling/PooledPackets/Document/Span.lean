/-!
# Parts of a text

A part of a text is given by positions, which are counted in bytes. What was
read from a document can remember the part that it was read from.
-/

namespace PooledPackets.Document

/-- A part of a text: the position of its first byte and the position behind
its last one. -/
structure Span where
  start : Nat
  stop : Nat
  deriving DecidableEq, Repr, Inhabited

namespace Span

/-- The part from the start of one part to the end of another one. -/
def through (first last : Span) : Span :=
  ⟨first.start, last.stop⟩

end Span

/-- Something with the part of a text that it was read from. What has no text
of its own has no such part. -/
structure Located (α : Type) where
  content : α
  span : Option Span
  deriving DecidableEq, Repr, Inhabited

namespace Located

variable {α : Type}

/-- Something that was read from no text. -/
def nowhere (content : α) : Located α :=
  ⟨content, none⟩

/-- Gives a part of the text to what has none. -/
def orAt (item : Located α) (span : Option Span) : Located α :=
  { item with span := item.span <|> span }

end Located

end PooledPackets.Document
