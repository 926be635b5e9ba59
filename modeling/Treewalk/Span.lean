/-
A span is the stretch of source text that a tree node was read from, as two byte offsets. The
second is exclusive. Offsets are machine words: a span says nothing about any particular text,
and it may be empty, inverted or past the end of the text it is used with.
-/

namespace Treewalk

/-- A stretch of source text: the bytes from `start` up to, not including, `stop`. -/
structure Span where
  start : UInt32
  stop : UInt32
deriving DecidableEq, Inhabited

namespace Span

/-- The span of a node that no text was read for. -/
def nowhere : Span := ⟨0, 0⟩

/-- A span is written as its two offsets with two points between. -/
def display (span : Span) : String :=
  toString span.start.toNat ++ ".." ++ toString span.stop.toNat

example : nowhere.display = "0..0" := by decide
example : (Span.mk 4 11).display = "4..11" := by decide

end Span

end Treewalk
