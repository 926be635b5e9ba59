/-
This file proves that a line table may be asked about another text than its own.

What a table knows of its own text stays true: which line an offset is in, and where the lines start
(`exists_lineStart?_iff`, `toNat_lineOf`). In the other text, a line may start past the end or
inside a character, and it may start behind an offset that is past the end. Then there is no slice,
and the column is taken from the bytes, of which there are none if the line starts too late
(`countsBefore`), while the line has no text (`isSome_lineText?_iff`). So a column is never larger
than the other text is long, and a text that is found is a part of it.

All the numbers on the way are those of unbounded arithmetic (`LookupsFit`). As for its own text,
the text that the table was made from must not have a line whose number is the last word
(`number_behind_line_of_table_is_no_word`).
-/
import Treewalk.Proofs.Pieces

namespace Treewalk.Source

/-- Whether the lookups in the table of one text, asked about another one, come to the numbers of
unbounded arithmetic. -/
structure LookupsFit (made asked : String) : Prop where
  /-- The table has the offsets behind the newlines. -/
  starts : (LineTable.ofText made.toList).starts.map UInt32.toNat =
    startsOf 0 (lines made.toList)
  /-- The number of a line is one more than its index. -/
  line : ∀ offset, ((LineTable.ofText made.toList).lineOf offset).toNat =
    newlinesBefore made offset + 1
  /-- The index of a line is one less than its number, which is not zero. -/
  index : ∀ line start, (LineTable.ofText made.toList).lineStart? line = some start →
    ∃ index, line.toNat = index + 1 ∧ (LineTable.ofText made.toList).starts[index]? = some start
  /-- A column is one more than what is counted in front of it. -/
  column : ∀ offset, ((LineTable.ofText made.toList).locate asked.toList offset).2.toNat =
    (LineTable.ofText made.toList).before asked.toList offset + 1
  /-- The number behind that of a line is larger by one. -/
  next : ∀ line start, (LineTable.ofText made.toList).lineStart? line = some start →
    (line + 1).toNat = line.toNat + 1
  /-- The start of a line that has another one in front of it is not the first offset. -/
  behind : ∀ line start next, (LineTable.ofText made.toList).lineStart? line = some start →
    (LineTable.ofText made.toList).lineStart? (line + 1) = some next → start < next

/-- How much is counted of a text between two offsets: the characters between them, if they are two
ends of characters and the first one comes first, and the bytes otherwise. -/
def CountsBetween (text : List Char) (start stop count : Nat) : Prop :=
  (∃ front characters rest, text = front ++ characters ++ rest ∧ byteLength front = start ∧
      byteLength (front ++ characters) = stop ∧ count = characters.length) ∨
    ¬(start ≤ stop ∧ IsBoundary text start ∧ IsBoundary text stop) ∧ count = stop - start

namespace LineTable

/-- What is counted in front of an offset, in any text. -/
theorem countsBefore {table : LineTable} {offset start : UInt32} (text : List Char)
    (found : table.lineStart? (table.lineOf offset) = some start) :
    CountsBetween text start.toNat (min offset.toNat (byteLength text))
      (table.before text offset) := by
  unfold before
  dsimp only
  rw [found, Option.getD_some]
  cases slice : slice? text start.toNat (min offset.toNat (byteLength text)) with
  | some characters =>
    obtain ⟨front, rest, whole, begins, ends⟩ := slice?_eq_some_iff.mp slice
    exact .inl ⟨front, characters, rest, whole, begins,
      by rw [byteLength_append, begins, ends], rfl⟩
  | none =>
    refine .inr ⟨fun boundaries => ?_, rfl⟩
    have some := isSome_slice?_iff.mpr boundaries
    rw [slice] at some
    cases some

/-- A line has a text if it starts and ends at ends of characters. -/
theorem isSome_lineText?_iff (table : LineTable) (text : List Char) (line : UInt32) :
    (table.lineText? text line).isSome = true ↔
      ∃ start, table.lineStart? line = some start ∧ IsBoundary text start.toNat ∧
        IsBoundary text (max (table.lineStop text line) start.toNat) := by
  rw [lineText?_eq]
  cases table.lineStart? line with
  | none => exact iff_of_false nofun nofun
  | some start =>
    rw [Option.bind_some, Option.isSome_map, isSome_slice?_iff]
    constructor
    · rintro ⟨-, boundaries⟩
      exact ⟨start, rfl, boundaries⟩
    · rintro ⟨start', same, boundaries⟩
      cases same
      exact ⟨Nat.le_max_right .., boundaries⟩

/-- A text that is found is a part of the text that the table is asked about. -/
theorem exists_eq_append_of_lineText? {table : LineTable} {text characters : List Char}
    {line : UInt32} (found : table.lineText? text line = some characters) :
    ∃ front rest, text = front ++ characters ++ rest := by
  rw [lineText?_eq] at found
  obtain ⟨start, -, found⟩ := Option.bind_eq_some_iff.mp found
  obtain ⟨middle, slice, rfl⟩ := Option.map_eq_some_iff.mp found
  obtain ⟨front, rest, whole, -⟩ := slice?_eq_some_iff.mp slice
  refine ⟨front, returnOf middle ++ rest, ?_⟩
  calc text = front ++ middle ++ rest := whole
    _ = front ++ (withoutReturn middle ++ returnOf middle) ++ rest := by
      rw [withoutReturn_append_returnOf]
    _ = front ++ withoutReturn middle ++ (returnOf middle ++ rest) := by
      simp only [List.append_assoc]

end LineTable

theorem lookupsFit {made asked : String} (shortMade : made.utf8ByteSize < UInt32.size - 1)
    (few : made.toByteArray.data.toList.count newline < UInt32.size - 2)
    (shortAsked : asked.utf8ByteSize < UInt32.size - 1) : LookupsFit made asked := by
  rw [← byteLength_toList] at shortMade shortAsked
  rw [← bytes_toList] at few
  exact {
    starts := LineTable.map_starts shortMade
    line := toNat_lineOf_source shortMade
    index := fun line start => LineTable.lineStart?_eq_some_iff.mp
    column := LineTable.toNat_column_eq shortAsked _
    next := fun line start => LineTable.toNat_behind shortMade few
    behind := fun line start next found known => by
      have later := LineTable.line_behind shortMade found
      rw [known] at later
      exact UInt32.lt_iff_toNat_lt.mpr later.2
  }

/-- A table that was made from one source may be asked about any other one. Every number that a
lookup comes to is that of unbounded arithmetic. The line of an offset is a line of the source that
the table was made from and starts no later than at the offset. The column counts what is in front
of the offset in the other source, characters where there is a slice and bytes where there is none,
and so is at most one more than the bytes of that source. A line has a text if it starts and ends at
ends of characters of the other source, and then its text is a part of that source. -/
theorem lookups_tolerate_foreign_source (made asked : String)
    (shortMade : made.utf8ByteSize < UInt32.size - 1)
    (few : made.toByteArray.data.toList.count newline < UInt32.size - 2)
    (shortAsked : asked.utf8ByteSize < UInt32.size - 1) :
    let table := LineTable.ofText made.toList
    let text := asked.toList
    let newlines := made.toByteArray.data.toList.count newline
    LookupsFit made asked ∧
    (∀ offset,
      1 ≤ (table.lineOf offset).toNat ∧ (table.lineOf offset).toNat ≤ 1 + newlines ∧
      (table.locate text offset).1 = table.lineOf offset ∧
      1 ≤ (table.locate text offset).2.toNat ∧
      (table.locate text offset).2.toNat ≤ 1 + asked.utf8ByteSize ∧
      ∃ start, table.lineStart? (table.lineOf offset) = some start ∧ start ≤ offset ∧
        CountsBetween text start.toNat (min offset.toNat asked.utf8ByteSize)
          (table.before text offset)) ∧
    ∀ line,
      ((∃ start, table.lineStart? line = some start) ↔
        1 ≤ line.toNat ∧ line.toNat ≤ 1 + newlines) ∧
      (∀ start, table.lineStart? line = some start → start.toNat ≤ made.utf8ByteSize) ∧
      ((table.lineText? text line).isSome = true ↔
        ∃ start, table.lineStart? line = some start ∧ IsBoundary text start.toNat ∧
          IsBoundary text (max (table.lineStop text line) start.toNat)) ∧
      ∀ characters, table.lineText? text line = some characters →
        ∃ front rest, text = front ++ characters ++ rest := by
  intro table text newlines
  have fits := lookupsFit shortMade few shortAsked
  rw [← byteLength_toList] at shortMade
  have known (line : UInt32) : (∃ start, table.lineStart? line = some start) ↔
      1 ≤ line.toNat ∧ line.toNat ≤ 1 + newlines := by
    rw [LineTable.exists_lineStart?_iff shortMade, bytes_toList, Nat.add_comm]
  refine ⟨fits, fun offset => ?_, fun line => ⟨known line, fun start found => ?_,
    table.isSome_lineText?_iff text line,
    fun characters => LineTable.exists_eq_append_of_lineText?⟩⟩
  · obtain ⟨start, found, early⟩ := LineTable.exists_lineStart?_lineOf shortMade offset
    obtain ⟨least, greatest⟩ := (known (table.lineOf offset)).mp ⟨start, found⟩
    have column : (table.locate text offset).2.toNat = table.before text offset + 1 :=
      fits.column offset
    have few := table.before_le text offset
    have counted := LineTable.countsBefore text found
    rw [byteLength_toList] at few counted
    exact ⟨least, greatest, rfl, by omega, by omega, start, found, early, counted⟩
  · rw [← byteLength_toList]
    exact LineTable.start_le_byteLength shortMade found

/-- A table asked about another source, whose characters do not end where its lines do. -/
theorem first_line_ends_inside_letter :
    let made := "abc\nd"
    let asked := "αβ"
    let table := LineTable.ofText made.toList
    let text := asked.toList
    made.utf8ByteSize < UInt32.size - 1 ∧
    made.toByteArray.data.toList.count newline < UInt32.size - 2 ∧
    asked.utf8ByteSize < UInt32.size - 1 ∧ LookupsFit made asked ∧
    table.locate text 3 = (1, 4) ∧ (table.locate text 3).2.toNat ≤ 1 + asked.utf8ByteSize ∧
    CountsBetween text 0 3 (table.before text 3) ∧ ¬IsBoundary text 3 ∧
    table.lineText? text 1 = none ∧ table.lineText? text 2 = some [] ∧
    ∃ front rest, text = front ++ [] ++ rest := by
  intro made asked table text
  have shortMade : made.utf8ByteSize < UInt32.size - 1 := by decide +kernel
  have few : made.toByteArray.data.toList.count newline < UInt32.size - 2 := by decide +kernel
  have shortAsked : asked.utf8ByteSize < UInt32.size - 1 := by decide +kernel
  obtain ⟨fits, offsets, lines⟩ :=
    lookups_tolerate_foreign_source made asked shortMade few shortAsked
  obtain ⟨-, -, -, -, column, start, found, -, counted⟩ := offsets 3
  have first : table.lineStart? (table.lineOf 3) = some 0 := by decide +kernel
  have second : table.lineText? text 2 = some [] := by decide +kernel
  obtain rfl : start = 0 := Option.some.inj (found.symm.trans first)
  exact ⟨shortMade, few, shortAsked, fits, by decide +kernel, column, counted, by decide +kernel,
    by decide +kernel, second, (lines 2).2.2.2 [] second⟩

/-- A table can have so many lines that the number of the last one is the last word. Whatever source
it is asked about, here one without a character, the number behind that line is not a word. -/
theorem number_behind_line_of_table_is_no_word :
    let made := newlines (UInt32.size - 2)
    let asked := ""
    let table := LineTable.ofText made.toList
    made.utf8ByteSize < UInt32.size - 1 ∧ asked.utf8ByteSize < UInt32.size - 1 ∧
    (∃ start, table.lineStart? 4294967295 = some start) ∧
    ((4294967295 : UInt32) + 1).toNat ≠ UInt32.toNat 4294967295 + 1 ∧ ¬LookupsFit made asked := by
  intro made asked table
  have shortMade : made.utf8ByteSize < UInt32.size - 1 := by
    rw [utf8ByteSize_newlines]
    decide
  have sum : ((4294967295 : UInt32) + 1).toNat ≠ UInt32.toNat 4294967295 + 1 := by decide
  obtain ⟨start, found⟩ : ∃ start, table.lineStart? 4294967295 = some start :=
    (exists_lineStart?_newlines (by decide)).mpr (by decide)
  exact ⟨shortMade, by decide, ⟨start, found⟩, sum, fun fits => sum (fits.next _ start found)⟩

end Treewalk.Source
