/-
Lines and columns. A line table knows at which byte each line of a text starts, and the line of an
offset is found by a binary search in it. Lines and columns are counted from one; a column counts
characters, not bytes. Offsets, lines and columns are machine words, whose sums wrap around; a
number that is too large for a word is kept at a limit.

A table may be used with a text other than its own. Then a line may start past the end of the text
or inside a character: the column is taken from the bytes instead, and such a line has no text.
-/
import Treewalk.Source.Slice

namespace Treewalk.Source

/-- Where the lines of a text start. -/
structure LineTable where
  starts : List UInt32
deriving DecidableEq

/-- The byte that ends a line. -/
def newline : UInt8 := 10

/-- The offsets behind the newlines among the bytes that stand at a given offset. -/
def lineStartsFrom (offset : Nat) : List UInt8 → List UInt32
  | [] => []
  | byte :: rest =>
    if byte = newline then UInt32.ofNatClamp (offset + 1) :: lineStartsFrom (offset + 1) rest
    else lineStartsFrom (offset + 1) rest

/-- The number that follows an index or a count. One that is too large for a word is taken for the
last word but one. -/
def ordinal (index : Nat) : UInt32 :=
  (if index < UInt32.size then UInt32.ofNat index else UInt32.ofNat (UInt32.size - 2)) + 1

/-- A text without the carriage return at its end, if there is one. -/
def withoutReturn (text : List Char) : List Char :=
  match text.getLast? with
  | some '\r' => text.dropLast
  | _ => text

/-! ### Binary search -/

/-- The search for a target among `size` words from index `base` on. It goes on with the half that
may hold the target until one word is left. -/
def searchFrom (words : List UInt32) (target : UInt32) (base size : Nat) : Nat :=
  if size ≤ 1 then base
  else
    let middle := base + size / 2
    if target < words[middle]?.getD 0 then searchFrom words target base (size - size / 2)
    else searchFrom words target middle (size - size / 2)
termination_by size

/-- The index of a target among ascending words, or else the index at which it would have to be
inserted. -/
def search (words : List UInt32) (target : UInt32) : Except Nat Nat :=
  let index := searchFrom words target 0 words.length
  match words[index]? with
  | none => .error 0
  | some word =>
    if word = target then .ok index
    else .error (if word < target then index + 1 else index)

namespace LineTable

/-- The table of a text: a line starts at the beginning and behind every newline. -/
def ofText (text : List Char) : LineTable := ⟨0 :: lineStartsFrom 0 (bytes text)⟩

/-- The line that an offset is in. Offsets past the end are in the last line. -/
def lineOf (table : LineTable) (offset : UInt32) : UInt32 :=
  ordinal <|
    match search table.starts offset with
    | .ok exact => exact
    | .error insert => insert - 1

/-- The offset that a line starts at, if there is such a line. -/
def lineStart? (table : LineTable) (line : UInt32) : Option UInt32 :=
  if line = 0 then none else table.starts[line.toNat - 1]?

/-- The line and the column of an offset. Offsets past the end are at the end. -/
def locate (table : LineTable) (text : List Char) (offset : UInt32) : UInt32 × UInt32 :=
  let line := table.lineOf offset
  let start := ((table.lineStart? line).getD 0).toNat
  let stop := min offset.toNat (byteLength text)
  let before :=
    match slice? text start stop with
    | some characters => characters.length
    | none => stop - start
  (line, ordinal before)

@[simp] theorem fst_locate (table : LineTable) (text : List Char) (offset : UInt32) :
    (table.locate text offset).1 = table.lineOf offset := rfl

/-- The text of a line without what ends it, if there is such a line. -/
def lineText? (table : LineTable) (text : List Char) (line : UInt32) : Option (List Char) :=
  match table.lineStart? line with
  | none => none
  | some start =>
    let stop :=
      match table.lineStart? (line + 1) with
      | some next => next.toNat - 1
      | none => byteLength text
    (slice? text start.toNat (max stop start.toNat)).map withoutReturn

example : (ofText "abc\ndefgh\nij".toList).locate "abc\ndefgh\nij".toList 7 = (2, 4) := by
  decide +kernel

example : (ofText "αβγ\nδε".toList).locate "αβγ\nδε".toList 2 = (1, 2) := by decide +kernel

example : (ofText "first\r\nsecond\n".toList).lineText? "first\r\nsecond\n".toList 1 =
    some "first".toList := by decide +kernel

end LineTable

end Treewalk.Source
