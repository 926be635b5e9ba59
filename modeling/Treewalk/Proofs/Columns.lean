/-
This file proves that lines and columns are exact: a line and a column say where in a text they
are.

The starts of the lines ascend without repetition, so the line of an offset is the only one whose
start is not past the offset while the next start is (`exists_lineStart?_lineOf`,
`lt_of_lineStart?_next`), and a line is the line of its own start (`lineOf_lineStart?`). At the end
of a character, the column counts the characters from the start of the line (`toNat_column`). An
offset inside a character has no such characters: its column counts bytes (`toNat_column_inside`).
-/
import Treewalk.Proofs.Lines

namespace Treewalk.Source

/-! ### Ends of characters -/

/-- Whether an offset is the beginning or the end of a text or lies between two characters. -/
def IsBoundary (text : List Char) (offset : Nat) : Prop :=
  ∃ front rest, text = front ++ rest ∧ byteLength front = offset

instance (text : List Char) (offset : Nat) : Decidable (IsBoundary text offset) :=
  decidable_of_iff ((dropBytes? offset text).isSome = true) <| by
    rw [Option.isSome_iff_exists]
    simp only [dropBytes?_eq_some_iff]
    exact exists_comm

theorem length_le_byteLength (text : List Char) : text.length ≤ byteLength text := by
  induction text with
  | nil => exact Nat.le_refl 0
  | cons character rest inductionHypothesis =>
    have positive := character.utf8Size_pos
    rw [List.length_cons, byteLength_cons]
    omega

/-- Of two beginnings of a text, the one with no more bytes is the beginning of the other. -/
theorem exists_eq_append {front rest front' rest' : List Char}
    (same : front ++ rest = front' ++ rest') (less : byteLength front ≤ byteLength front') :
    ∃ middle, front' = front ++ middle ∧ rest = middle ++ rest' := by
  rcases List.append_eq_append_iff.mp same with shorter | ⟨middle, rfl, rfl⟩
  · exact shorter
  · rw [byteLength_append] at less
    obtain rfl : middle = [] := byteLength_eq_zero_iff.mp (by omega)
    exact ⟨[], by rw [List.append_nil, List.append_nil], rfl⟩

/-- Two beginnings of a text with equally many bytes are the same. -/
theorem eq_of_byteLength_eq {front rest front' rest' : List Char}
    (same : front ++ rest = front' ++ rest') (size : byteLength front = byteLength front') :
    front = front' ∧ rest = rest' := by
  obtain ⟨middle, rfl, rfl⟩ := exists_eq_append same (Nat.le_of_eq size)
  rw [byteLength_append] at size
  obtain rfl : middle = [] := byteLength_eq_zero_iff.mp (by omega)
  exact ⟨(List.append_nil front).symm, rfl⟩

/-- There is no end of a character between the bytes of another one. -/
theorem not_isBoundary_inside {front rest : List Char} {character : Char} {offset : Nat}
    (behind : byteLength front < offset)
    (before : offset < byteLength (front ++ [character])) :
    ¬IsBoundary (front ++ character :: rest) offset := by
  rintro ⟨front', rest', same, rfl⟩
  obtain ⟨middle, rfl, inside⟩ := exists_eq_append same (Nat.le_of_lt behind)
  rw [byteLength_append] at behind before
  cases middle with
  | nil => exact Nat.lt_irrefl _ behind
  | cons first others =>
    obtain ⟨rfl, -⟩ := List.cons.inj inside
    rw [byteLength_append] at before
    simp only [byteLength_cons, byteLength_nil] at before
    omega

/-- Whether a text is a line between what stands above it and what stands below it. -/
structure IsLine (text above line below : List Char) : Prop where
  whole : text = above ++ line ++ below
  above : above = [] ∨ above.getLast? = some '\n'
  below : below = [] ∨ below.head? = some '\n'
  single : '\n' ∉ line

namespace LineTable

/-! ### Starts of lines -/

theorem lineStart?_eq_some_iff {table : LineTable} {line start : UInt32} :
    table.lineStart? line = some start ↔
      ∃ index, line.toNat = index + 1 ∧ table.starts[index]? = some start := by
  unfold lineStart?
  constructor
  · intro found
    split at found
    · cases found
    next numbered =>
      have positive : 0 < line.toNat :=
        Nat.pos_of_ne_zero fun zero => numbered (UInt32.toNat_inj.mp zero)
      exact ⟨line.toNat - 1, by omega, found⟩
  · rintro ⟨index, number, found⟩
    rw [if_neg, number]
    · exact found
    · rintro rfl
      cases number

section Short

variable {text : List Char} (short : byteLength text < UInt32.size - 1)

include short

/-- There are as many lines as newlines, and one more. -/
theorem exists_lineStart?_iff {line : UInt32} :
    (∃ start, (ofText text).lineStart? line = some start) ↔
      1 ≤ line.toNat ∧ line.toNat ≤ (bytes text).count newline + 1 := by
  by_cases zero : line = 0
  · subst zero
    exact iff_of_false nofun fun numbered => Nat.not_succ_le_zero 0 numbered.1
  have positive : line.toNat ≠ 0 := fun none => zero (UInt32.toNat_inj.mp none)
  have place := congrArg Option.isSome (lineStart?_ofText short zero)
  rw [Option.isSome_map] at place
  rw [← Option.isSome_iff_exists, place, isSome_getElem?, length_startsOf, length_lines]
  omega

/-- The line of an offset starts no later than there. -/
theorem exists_lineStart?_lineOf (offset : UInt32) :
    ∃ start, (ofText text).lineStart? ((ofText text).lineOf offset) = some start ∧
      start ≤ offset := by
  have number := toNat_lineOf short offset
  have inside : ((ofText text).lineOf offset).toNat ≤ (ofText text).starts.length := by
    rw [number, ← countP_starts short]
    exact List.countP_le_length
  have place : ((bytes text).take offset.toNat).count newline < (ofText text).starts.length := by
    omega
  exact ⟨_, lineStart?_eq_some_iff.mpr ⟨_, number, List.getElem?_eq_getElem place⟩,
    (start_le_iff short place).mpr (by omega)⟩

/-- The line after the line of an offset starts later than there. -/
theorem lt_of_lineStart?_next {offset next : UInt32}
    (found : (ofText text).lineStart? ((ofText text).lineOf offset + 1) = some next) :
    offset < next := by
  obtain ⟨index, number, found⟩ := lineStart?_eq_some_iff.mp found
  obtain ⟨inside, rfl⟩ := List.getElem?_eq_some_iff.mp found
  -- The number of the next line has not wrapped around, since there is no line zero.
  have same : index = ((ofText text).lineOf offset).toNat := by
    have word := ((ofText text).lineOf offset).toNat_lt
    rw [UInt32.toNat_add, UInt32.toNat_one] at number
    omega
  refine UInt32.not_le.mp fun early => ?_
  have before := (start_le_iff short inside).mp early
  omega

/-- A line is the line of its start. -/
theorem lineOf_lineStart? {line start : UInt32}
    (found : (ofText text).lineStart? line = some start) : (ofText text).lineOf start = line := by
  obtain ⟨index, number, found⟩ := lineStart?_eq_some_iff.mp found
  obtain ⟨inside, rfl⟩ := List.getElem?_eq_some_iff.mp found
  have here := (start_le_iff short inside).mp (UInt32.le_refl _)
  obtain ⟨last, found', early⟩ := exists_lineStart?_lineOf short (ofText text).starts[index]
  obtain ⟨index', number', found'⟩ := lineStart?_eq_some_iff.mp found'
  obtain ⟨inside', rfl⟩ := List.getElem?_eq_some_iff.mp found'
  -- A line that comes later starts later.
  have last : ¬index < index' := fun later =>
    UInt32.not_lt.mpr early
      (List.pairwise_iff_getElem.mp (starts_ascending short) index index' inside inside' later)
  exact UInt32.toNat_inj.mp (by omega)

/-- Where the table has a start, there is a line of the text, and the next line starts behind the
newline below it. -/
theorem exists_isLine {line start : UInt32}
    (found : (ofText text).lineStart? line = some start) :
    ∃ above characters below, IsLine text above characters below ∧
      (lines text)[line.toNat - 1]? = some characters ∧ byteLength above = start.toNat ∧
      (below ≠ [] → ∃ next, (ofText text).lineStart? (line + 1) = some next ∧
        next.toNat = byteLength (above ++ characters) + 1) := by
  obtain ⟨index, number, -⟩ := lineStart?_eq_some_iff.mp found
  have numbered : line ≠ 0 := by
    rintro rfl
    cases number
  have place := lineStart?_ofText short numbered
  rw [found, Option.map_some] at place
  obtain ⟨characters, known⟩ : ∃ characters, (lines text)[line.toNat - 1]? = some characters := by
    refine ⟨_, List.getElem?_eq_getElem ?_⟩
    rw [← length_startsOf 0]
    exact (List.getElem?_eq_some_iff.mp place.symm).1
  obtain ⟨above, below, whole, ends, begins, here, next⟩ := exists_joinLines_eq 0 known
  rw [joinLines_lines] at whole
  rw [← place, Nat.zero_add] at here
  refine ⟨above, characters, below,
    ⟨whole, ends, begins, newline_not_mem_of_mem_lines (List.mem_of_getElem? known)⟩,
    known, (Option.some.inj here).symm, fun more => ?_⟩
  rw [number, Nat.add_sub_cancel, ← number, ← lineStart?_add_one short, if_neg more,
    Nat.zero_add, ← byteLength_append] at next
  exact Option.map_eq_some_iff.mp next

/-- An offset at the end of a character divides the line that it is in. -/
theorem exists_divided_line {front rest : List Char} (whole : text = front ++ rest)
    {offset : UInt32} (place : byteLength front = offset.toNat) :
    ∃ start above before after below,
      (ofText text).lineStart? ((ofText text).lineOf offset) = some start ∧
      byteLength above = start.toNat ∧ front = above ++ before ∧ rest = after ++ below ∧
      IsLine text above (before ++ after) below ∧
      (lines text)[((ofText text).lineOf offset).toNat - 1]? = some (before ++ after) := by
  obtain ⟨start, found, early⟩ := exists_lineStart?_lineOf short offset
  obtain ⟨above, characters, below, isLine, line, starts, next⟩ := exists_isLine short found
  have early : byteLength above ≤ byteLength front := by
    rw [starts, place]
    exact UInt32.le_iff_toNat_le.mp early
  have late : byteLength front ≤ byteLength (above ++ characters) := by
    by_cases last : below = []
    · have all : text = above ++ characters := by rw [isLine.whole, last, List.append_nil]
      rw [← all, whole, byteLength_append]
      exact Nat.le_add_right ..
    · obtain ⟨start', found', size⟩ := next last
      have less := UInt32.lt_iff_toNat_lt.mp (lt_of_lineStart?_next short found')
      omega
  have same : front ++ rest = above ++ characters ++ below := whole.symm.trans isLine.whole
  obtain ⟨after, divided, rfl⟩ := exists_eq_append same late
  obtain ⟨before, rfl, rfl⟩ := exists_eq_append divided early
  exact ⟨start, above, before, after, below, found, starts, rfl, rfl, isLine, line⟩

/-! ### Columns -/

section Column

variable {offset start : UInt32}
  (found : (ofText text).lineStart? ((ofText text).lineOf offset) = some start)

include found

theorem column_eq_of_slice {characters : List Char}
    (slice : slice? text start.toNat (min offset.toNat (byteLength text)) = some characters) :
    ((ofText text).locate text offset).2.toNat = characters.length + 1 := by
  obtain ⟨front, rest, whole, -⟩ := slice?_eq_some_iff.mp slice
  have few := length_le_byteLength characters
  rw [whole, byteLength_append, byteLength_append] at short
  have fits : characters.length < UInt32.size - 1 := by omega
  unfold locate
  dsimp only
  rw [found, Option.getD_some, slice]
  exact toNat_ordinal fits

/-- At the end of a character, the column is one more than the characters from the start of the line
on. -/
theorem toNat_column {above before rest : List Char} (whole : text = above ++ before ++ rest)
    (starts : byteLength above = start.toNat)
    (place : byteLength (above ++ before) = offset.toNat) :
    ((ofText text).locate text offset).2.toNat = before.length + 1 := by
  refine column_eq_of_slice short found (slice?_eq_some_iff.mpr ⟨above, rest, whole, starts, ?_⟩)
  rw [whole, byteLength_append _ rest, place, Nat.min_eq_left (Nat.le_add_right ..), ← place,
    byteLength_append, starts]

/-- Inside a character, the column is one more than the bytes from the start of the line on. -/
theorem toNat_column_inside {above before rest : List Char} {character : Char}
    (whole : text = above ++ before ++ character :: rest)
    (starts : byteLength above = start.toNat)
    (behind : byteLength (above ++ before) < offset.toNat)
    (ahead : offset.toNat < byteLength (above ++ before ++ [character])) :
    ((ofText text).locate text offset).2.toNat = offset.toNat - start.toNat + 1 := by
  have whole' : text = (above ++ before ++ [character]) ++ rest := by
    rw [whole, List.append_assoc _ [character]]
    rfl
  have size : offset.toNat < byteLength text := by
    rw [whole', byteLength_append _ rest]
    omega
  have none : slice? text start.toNat offset.toNat = none := by
    refine Option.eq_none_iff_forall_ne_some.mpr fun characters slice => ?_
    obtain ⟨front, rest', same, ends, place⟩ := slice?_eq_some_iff.mp slice
    refine not_isBoundary_inside behind ahead ⟨front ++ characters, rest', whole ▸ same, ?_⟩
    rw [byteLength_append]
    omega
  have fits : offset.toNat - start.toNat < UInt32.size - 1 := by omega
  unfold locate
  dsimp only
  rw [found, Option.getD_some, Nat.min_eq_left (Nat.le_of_lt size), none]
  exact toNat_ordinal fits

end Column

variable {offset offset' : UInt32}

/-- At the end of a character, line and column say where the offset is. -/
theorem exists_column {front rest : List Char} (whole : text = front ++ rest)
    (place : byteLength front = offset.toNat) :
    ∃ start above before, (ofText text).lineStart? ((ofText text).lineOf offset) = some start ∧
      byteLength above = start.toNat ∧ front = above ++ before ∧
      ((ofText text).locate text offset).2.toNat = before.length + 1 := by
  obtain ⟨start, above, before, after, below, found, starts, rfl, -⟩ :=
    exists_divided_line short whole place
  exact ⟨start, above, before, found, starts, rfl, toNat_column short found whole starts place⟩

theorem lineOf_mono (less : offset ≤ offset') :
    (ofText text).lineOf offset ≤ (ofText text).lineOf offset' := by
  have fewer : ((bytes text).take offset.toNat).count newline ≤
      ((bytes text).take offset'.toNat).count newline :=
    (List.take_sublist_take_left (UInt32.le_iff_toNat_le.mp less)).count_le _
  rw [UInt32.le_iff_toNat_le, toNat_lineOf short, toNat_lineOf short]
  omega

/-- Ends of characters come in the order of their lines and, within a line, of their columns. -/
theorem locate_lt_locate (boundary : IsBoundary text offset.toNat)
    (boundary' : IsBoundary text offset'.toNat) (less : offset < offset') :
    Prod.Lex (· < ·) (· < ·) ((ofText text).locate text offset)
      ((ofText text).locate text offset') := by
  rw [Prod.lex_def]
  by_cases same : (ofText text).lineOf offset = (ofText text).lineOf offset'
  · refine .inr ⟨same, ?_⟩
    obtain ⟨front, rest, whole, place⟩ := boundary
    obtain ⟨front', rest', whole', place'⟩ := boundary'
    obtain ⟨start, above, before, found, starts, rfl, column⟩ := exists_column short whole place
    obtain ⟨start', above', before', found', starts', rfl, column'⟩ :=
      exists_column short whole' place'
    obtain rfl : start = start' := Option.some.inj (found.symm.trans (same ▸ found'))
    have all : above ++ (before ++ rest) = above' ++ (before' ++ rest') := by
      rw [← List.append_assoc, ← List.append_assoc, ← whole, ← whole']
    obtain ⟨rfl, ahead⟩ := eq_of_byteLength_eq all (starts.trans starts'.symm)
    have shorter : byteLength before < byteLength before' := by
      have words := UInt32.lt_iff_toNat_lt.mp less
      rw [← place, ← place', byteLength_append, byteLength_append] at words
      omega
    obtain ⟨middle, rfl, -⟩ := exists_eq_append ahead (Nat.le_of_lt shorter)
    have some : middle ≠ [] := by
      rintro rfl
      rw [List.append_nil] at shorter
      exact Nat.lt_irrefl _ shorter
    have more := List.length_pos_iff.mpr some
    rw [UInt32.lt_iff_toNat_lt, column, column', List.length_append]
    omega
  · exact .inl (UInt32.lt_of_le_of_ne (lineOf_mono short (UInt32.le_of_lt less)) same)

/-- No two ends of characters are on the same line and in the same column. -/
theorem eq_of_locate_eq (boundary : IsBoundary text offset.toNat)
    (boundary' : IsBoundary text offset'.toNat)
    (same : (ofText text).locate text offset = (ofText text).locate text offset') :
    offset = offset' := by
  have irreflexive : ∀ place : UInt32 × UInt32, ¬Prod.Lex (· < ·) (· < ·) place place := by
    intro place less
    rcases Prod.lex_def.mp less with less | ⟨-, less⟩ <;> exact UInt32.lt_irrefl _ less
  refine Decidable.by_contra fun different => ?_
  rcases UInt32.lt_or_lt_of_ne different with less | less
  · exact irreflexive _ (same ▸ locate_lt_locate short boundary boundary' less)
  · exact irreflexive _ (same ▸ locate_lt_locate short boundary' boundary less)

/-- Past the end, an offset is where the end is. -/
theorem locate_past_end (past : byteLength text ≤ offset.toNat) :
    (ofText text).locate text offset =
      (ofText text).locate text (UInt32.ofNat (byteLength text)) := by
  have size : (UInt32.ofNat (byteLength text)).toNat = byteLength text :=
    UInt32.toNat_ofNat_of_lt' (by omega)
  have line : (ofText text).lineOf offset =
      (ofText text).lineOf (UInt32.ofNat (byteLength text)) := by
    rw [← UInt32.toNat_inj, toNat_lineOf short, toNat_lineOf short, size, ← length_bytes,
      List.take_length, List.take_of_length_le (by rw [length_bytes]; exact past)]
  unfold locate
  rw [line, size, Nat.min_eq_right past, Nat.min_self]

end Short

end LineTable

/-- Lines and columns say where in a source an offset is. The line of an offset is one more than the
newlines among the bytes in front of it. It starts no later than there, the next line starts later,
and every line, from the first to the one behind the last newline, is the line of its own start. The
column of an offset at the end of a character is one more than the characters up to there from the
start of the line on. Such offsets come in the order of their lines and columns, and no two of them
have the same ones. An offset past the end is taken for the end. -/
theorem lines_and_columns_are_exact (source : String)
    (short : source.utf8ByteSize < UInt32.size - 1) :
    let text := source.toList
    let table := LineTable.ofText text
    (∀ offset : UInt32,
      (table.lineOf offset).toNat = 1 + (source.toByteArray.data.toList.take
          (min offset.toNat source.utf8ByteSize)).count newline ∧
      (∃ start, table.lineStart? (table.lineOf offset) = some start ∧ start ≤ offset) ∧
      ∀ next, table.lineStart? (table.lineOf offset + 1) = some next → offset < next) ∧
    (∀ line, (∃ start, table.lineStart? line = some start) ↔
      1 ≤ line.toNat ∧ line.toNat ≤ 1 + source.toByteArray.data.toList.count newline) ∧
    (∀ line start, table.lineStart? line = some start → table.lineOf start = line) ∧
    (∀ offset : UInt32, IsBoundary text offset.toNat →
      ∃ line column start above below, table.locate text offset = (line, column) ∧
        table.lineStart? line = some start ∧
        text = above ++ below ∧ byteLength above = start.toNat ∧
        1 ≤ column ∧ column.toNat - 1 ≤ below.length ∧
        offset.toNat = start.toNat + byteLength (below.take (column.toNat - 1))) ∧
    (∀ offset offset' : UInt32, IsBoundary text offset.toNat →
      IsBoundary text offset'.toNat →
        (offset < offset' →
          Prod.Lex (· < ·) (· < ·) (table.locate text offset) (table.locate text offset')) ∧
        (table.locate text offset = table.locate text offset' → offset = offset')) ∧
    ∀ offset : UInt32, source.utf8ByteSize < offset.toNat →
      table.locate text offset = table.locate text (UInt32.ofNat source.utf8ByteSize) := by
  intro text table
  have fits : byteLength text < UInt32.size - 1 := by
    rw [byteLength_toList]
    exact short
  refine ⟨fun offset => ⟨?_, LineTable.exists_lineStart?_lineOf fits offset,
      fun next => LineTable.lt_of_lineStart?_next fits⟩, fun line => ?_,
    fun line start => LineTable.lineOf_lineStart? fits, fun offset boundary => ?_,
    fun offset offset' boundary boundary' =>
      ⟨LineTable.locate_lt_locate fits boundary boundary',
        LineTable.eq_of_locate_eq fits boundary boundary'⟩,
    fun offset past => ?_⟩
  · rw [LineTable.toNat_lineOf fits, Nat.add_comm, ← byteLength_toList,
      ← bytes_toList, ← length_bytes, ← List.take_eq_take_min]
  · rw [LineTable.exists_lineStart?_iff fits, Nat.add_comm 1, bytes_toList]
  · obtain ⟨front, rest, whole, place⟩ := boundary
    obtain ⟨start, above, before, found, starts, rfl, column⟩ :=
      LineTable.exists_column fits whole place
    refine ⟨table.lineOf offset, (table.locate text offset).2, start, above, before ++ rest, rfl,
      found, ?_, starts, ?_, ?_, ?_⟩
    · rw [whole, List.append_assoc]
    · rw [UInt32.le_iff_toNat_le, column]
      exact Nat.le_add_left ..
    · rw [column, List.length_append]
      omega
    · rw [column, Nat.add_sub_cancel, List.take_left, ← starts, ← place, byteLength_append]
  · rw [← byteLength_toList] at past ⊢
    exact LineTable.locate_past_end fits (Nat.le_of_lt past)

/-- The letters of a source of two lines, some of which have two bytes. -/
theorem second_letter_before_second_line :
    let source := "αβ\nγ"
    let text := source.toList
    let table := LineTable.ofText text
    source.utf8ByteSize < UInt32.size - 1 ∧
    IsBoundary text 2 ∧ ¬IsBoundary text 3 ∧ IsBoundary text 5 ∧
    Prod.Lex (· < ·) (· < ·) (table.locate text 2) (table.locate text 5) ∧
    ∃ line column start above below, table.locate text 2 = (line, column) ∧
      table.lineStart? line = some start ∧
      text = above ++ below ∧ byteLength above = start.toNat ∧
      1 ≤ column ∧ column.toNat - 1 ≤ below.length ∧
      2 = start.toNat + byteLength (below.take (column.toNat - 1)) := by
  intro source text table
  have short : source.utf8ByteSize < UInt32.size - 1 := by decide +kernel
  have second : IsBoundary text 2 := by decide +kernel
  have fifth : IsBoundary text 5 := by decide +kernel
  obtain ⟨-, -, -, places, order, -⟩ := lines_and_columns_are_exact source short
  exact ⟨short, second, by decide +kernel, fifth, (order 2 5 second fifth).1 (by decide),
    places 2 second⟩

end Treewalk.Source
