/-
This file proves that the texts of the lines are the pieces of the source between its newlines.

Newlines are bytes, and a source is split at its bytes in the same way as at its characters
(`splitOn_bytes`). The table has a text for every number from one to that of the last piece and for
no other (`lineText?_eq_none_iff`), and this text is a slice between two ends of characters, less a
carriage return (`lineText?_eq_slice`). Nothing else is lost, so the texts of all lines, each with
the carriage return that it had, are the source again when they are joined (`joinLines_texts`).

The number behind that of a line is looked up to know where the line ends. It is a word if the
source has fewer newlines than there are words, less two (`toNat_behind`). A source with as many
newlines as that, and nothing else, is still short enough for its offsets to be words, and behind
its last line the sum leaves the words (`number_behind_last_piece_is_no_word`).
-/
import Mathlib.Data.List.Basic
import Treewalk.Proofs.Touched

namespace Treewalk.Source

/-! ### Pieces of bytes -/

theorem bytes_joinLines (pieces : List (List Char)) :
    bytes (joinLines pieces) = [newline].intercalate (pieces.map bytes) := by
  induction pieces with
  | nil => rfl
  | cons piece rest inductionHypothesis =>
    cases rest with
    | nil => exact (List.append_nil _).symm
    | cons next rest =>
      show bytes (piece ++ '\n' :: joinLines (next :: rest)) = _
      rw [bytes, List.flatMap_append, List.flatMap_cons]
      exact congrArg (bytes piece ++ newline :: ·) inductionHypothesis

theorem newline_not_mem_bytes {line : List Char} (single : '\n' ∉ line) : newline ∉ bytes line := by
  intro member
  obtain ⟨character, inside, member⟩ := List.mem_flatMap.mp member
  exact single (newline_mem_utf8EncodeChar_iff.mp member ▸ inside)

/-- The pieces between the newlines among the bytes of a text are the bytes of its lines. -/
theorem splitOn_bytes (text : List Char) :
    (bytes text).splitOn newline = (lines text).map bytes := by
  have joined : bytes text = [newline].intercalate ((lines text).map bytes) := by
    rw [← bytes_joinLines, joinLines_lines]
  rw [joined]
  refine List.splitOn_intercalate newline (fun piece member => ?_) ?_
  · obtain ⟨line, inside, rfl⟩ := List.mem_map.mp member
    exact newline_not_mem_bytes (newline_not_mem_of_mem_lines inside)
  · obtain ⟨line, rest, same⟩ := exists_lines_eq_cons text
    rw [same]
    exact List.cons_ne_nil _ _

/-! ### Carriage returns -/

/-- What is taken from the end of a line: its carriage return, if there is one. -/
def returnOf (line : List Char) : List Char := if line.getLast? = some '\r' then ['\r'] else []

/-- A line has lost nothing, or else the carriage return at its end. -/
theorem withoutReturn_eq_or (line : List Char) :
    withoutReturn line = line ∧ line.getLast? ≠ some '\r' ∨
      line = withoutReturn line ++ ['\r'] := by
  unfold withoutReturn
  split
  next ends =>
    obtain ⟨front, rfl⟩ := List.getLast?_eq_some_iff.mp ends
    rw [List.dropLast_concat]
    exact .inr rfl
  next other => exact .inl ⟨rfl, other⟩

theorem withoutReturn_append_returnOf (line : List Char) :
    withoutReturn line ++ returnOf line = line := by
  unfold returnOf
  rcases withoutReturn_eq_or line with ⟨same, other⟩ | ends
  · rw [if_neg other, List.append_nil, same]
  · rw [if_pos (by rw [ends, List.getLast?_concat]), ← ends]

/-! ### Slices -/

/-- There is a slice between two ends of characters, the first one first, and between no other
offsets. -/
theorem isSome_slice?_iff {text : List Char} {start stop : Nat} :
    (slice? text start stop).isSome = true ↔
      start ≤ stop ∧ IsBoundary text start ∧ IsBoundary text stop := by
  rw [Option.isSome_iff_exists]
  constructor
  · rintro ⟨middle, slice⟩
    obtain ⟨front, rest, whole, rfl, rfl⟩ := slice?_eq_some_iff.mp slice
    exact ⟨Nat.le_add_right .., ⟨front, middle ++ rest, by rw [whole, List.append_assoc], rfl⟩,
      ⟨front ++ middle, rest, whole, byteLength_append ..⟩⟩
  · rintro ⟨inOrder, ⟨front, rest, whole, rfl⟩, ⟨front', rest', whole', rfl⟩⟩
    obtain ⟨middle, rfl, -⟩ := exists_eq_append (whole.symm.trans whole') inOrder
    exact ⟨middle, slice?_eq_some_iff.mpr ⟨front, rest', whole', rfl, (byteLength_append ..).symm⟩⟩

namespace LineTable

/-- The texts of all the lines that a table has a start for, first to last. -/
def texts (table : LineTable) (text : List Char) : List (List Char) :=
  (List.range' 1 table.starts.length).filterMap fun number =>
    table.lineText? text (UInt32.ofNat number)

section Short

variable {text : List Char} (short : byteLength text < UInt32.size - 1)

include short

/-- Between where a line starts and where it ends there is a slice, and its text is in it. -/
theorem lineText?_eq_slice {line start : UInt32}
    (found : (ofText text).lineStart? line = some start) :
    start.toNat ≤ (ofText text).lineStop text line ∧ IsBoundary text start.toNat ∧
      IsBoundary text ((ofText text).lineStop text line) ∧
      (ofText text).lineText? text line =
        (slice? text start.toNat ((ofText text).lineStop text line)).map withoutReturn := by
  obtain ⟨-, characters, -, -, known, -⟩ := exists_isLine short found
  have numbered : line ≠ 0 := by
    rintro rfl
    cases found
  obtain ⟨start', found', inOrder, slice⟩ := exists_slice_line short numbered known
  obtain rfl : start = start' := Option.some.inj (found.symm.trans found')
  obtain ⟨-, first, last⟩ := isSome_slice?_iff.mp (Option.isSome_of_eq_some slice)
  refine ⟨inOrder, first, last, ?_⟩
  rw [lineText?_ofText short numbered known, slice]
  rfl

/-- There is a text for the numbers of the lines and for no other number. -/
theorem lineText?_eq_none_iff {line : UInt32} :
    (ofText text).lineText? text line = none ↔ line = 0 ∨ (lines text).length < line.toNat := by
  have starts : (∃ start, (ofText text).lineStart? line = some start) ↔
      1 ≤ line.toNat ∧ line.toNat ≤ (lines text).length := by
    rw [length_lines]
    exact exists_lineStart?_iff short
  cases found : (ofText text).lineStart? line with
  | some start =>
    obtain ⟨inOrder, first, last, same⟩ := lineText?_eq_slice short found
    obtain ⟨piece, slice⟩ :=
      Option.isSome_iff_exists.mp (isSome_slice?_iff.mpr ⟨inOrder, first, last⟩)
    obtain ⟨numbered, inside⟩ := starts.mp ⟨start, found⟩
    rw [same, slice]
    refine iff_of_false nofun ?_
    rintro (rfl | outside)
    · cases numbered
    · exact Nat.not_lt.mpr inside outside
  | none =>
    rw [lineText?_eq, found]
    refine iff_of_true rfl (Decidable.byContradiction fun inside => ?_)
    obtain ⟨numbered, inside⟩ := not_or.mp inside
    have positive : line.toNat ≠ 0 := fun zero => numbered (UInt32.toNat_inj.mp zero)
    obtain ⟨start, found'⟩ := starts.mpr ⟨by omega, by omega⟩
    cases found.symm.trans found'

/-- The texts of the lines are the lines without their carriage returns. -/
theorem texts_ofText : (ofText text).texts text = (lines text).map withoutReturn := by
  have few := length_lines_le short
  have count : (ofText text).starts.length = (lines text).length := by
    rw [← length_startsOf 0, ← map_starts short, List.length_map]
  have found : ∀ number ∈ List.range' 1 (lines text).length,
      (ofText text).lineText? text (UInt32.ofNat number) =
        some (withoutReturn ((lines text)[number - 1]?.getD [])) := by
    intro number member
    obtain ⟨least, greatest⟩ := List.mem_range'_1.mp member
    have word : (UInt32.ofNat number).toNat = number := UInt32.toNat_ofNat_of_lt' (by omega)
    have inside : number - 1 < (lines text).length := by omega
    have here : (lines text)[(UInt32.ofNat number).toNat - 1]? = some (lines text)[number - 1] := by
      rw [word, List.getElem?_eq_getElem inside]
    rw [List.getElem?_eq_getElem inside]
    refine lineText?_ofText short (fun zero => ?_) here
    rw [zero] at word
    cases word
    cases least
  unfold texts
  rw [count, List.filterMap_eq_map_iff_forall_eq_some.mpr found]
  refine List.ext_getElem? fun index => ?_
  rw [List.getElem?_map, List.getElem?_map]
  by_cases inside : index < (lines text).length
  · rw [List.getElem?_range' inside, List.getElem?_eq_getElem inside]
    simp [inside]
  · rw [List.getElem?_eq_none (Nat.not_lt.mp inside), List.getElem?_eq_none]
    · rfl
    · rw [List.length_range']
      exact Nat.not_lt.mp inside

/-- The texts of the lines are the text again, once their carriage returns are put back and they
are joined. -/
theorem joinLines_texts :
    joinLines (List.zipWith (· ++ ·) ((ofText text).texts text) ((lines text).map returnOf)) =
      text := by
  rw [texts_ofText short, List.zipWith_map, List.zipWith_self]
  simp only [withoutReturn_append_returnOf, List.map_id']
  exact joinLines_lines text

/-- Behind the number of a line there is a number that is larger by one. -/
theorem toNat_behind (few : (bytes text).count newline < UInt32.size - 2) {line start : UInt32}
    (found : (ofText text).lineStart? line = some start) :
    (line + 1).toNat = line.toNat + 1 := by
  have numbered := ((exists_lineStart?_iff short).mp ⟨start, found⟩).2
  rw [← length_lines] at numbered
  exact toNat_next few numbered

end Short

end LineTable

/-- The texts that the table finds are the pieces of the source between its newlines, each without
the carriage return at its end. There is a text for the number of each piece and for no other
number. It is a slice between two ends of characters, and the slice ends where the next line tells
it to, whose number is larger by one. Joined by newlines, each with its carriage return, the texts
are the source. -/
theorem line_texts_split_source (source : String)
    (short : source.utf8ByteSize < UInt32.size - 1)
    (few : source.toByteArray.data.toList.count newline < UInt32.size - 2) :
    let text := source.toList
    let contents := source.toByteArray.data.toList
    let table := LineTable.ofText text
    contents.splitOn newline = (lines text).map bytes ∧
    (∀ number, table.lineText? text number = none ↔
      number = 0 ∨ 1 + contents.count newline < number.toNat) ∧
    (∀ number piece, number ≠ 0 → (lines text)[number.toNat - 1]? = some piece →
      ∃ line, table.lineText? text number = some line ∧
        (line = piece ∧ piece.getLast? ≠ some '\r' ∨ piece = line ++ ['\r'])) ∧
    (∀ number start, table.lineStart? number = some start →
      let stop := table.lineStop text number
      start.toNat ≤ stop ∧ IsBoundary text start.toNat ∧ IsBoundary text stop ∧
        table.lineText? text number = (slice? text start.toNat stop).map withoutReturn) ∧
    (∀ number start, table.lineStart? number = some start →
      (number + 1).toNat = number.toNat + 1) ∧
    ∃ endings, endings.length = 1 + contents.count newline ∧
      (∀ ending ∈ endings, ending = [] ∨ ending = ['\r']) ∧
      joinLines (List.zipWith (· ++ ·) (table.texts text) endings) = text := by
  intro text contents table
  have fits : byteLength text < UInt32.size - 1 := by
    rw [byteLength_toList]
    exact short
  have same : bytes text = contents := bytes_toList source
  have count : (lines text).length = 1 + contents.count newline := by
    rw [length_lines, same, Nat.add_comm]
  refine ⟨same ▸ splitOn_bytes text, fun number => ?_, fun number piece numbered found => ?_,
    fun number start => LineTable.lineText?_eq_slice fits,
    fun number start => LineTable.toNat_behind fits (same ▸ few),
    (lines text).map returnOf, ?_, fun ending member => ?_, LineTable.joinLines_texts fits⟩
  · rw [← count]
    exact LineTable.lineText?_eq_none_iff fits
  · exact ⟨_, LineTable.lineText?_ofText fits numbered found, withoutReturn_eq_or piece⟩
  · rw [List.length_map, count]
  · obtain ⟨line, -, rfl⟩ := List.mem_map.mp member
    unfold returnOf
    split
    · exact .inr rfl
    · exact .inl rfl

/-- A source with an empty line, and with a carriage return at its end. -/
theorem three_pieces_two_returns :
    let source := "α\r\n\nβ\r"
    let text := source.toList
    let table := LineTable.ofText text
    source.utf8ByteSize < UInt32.size - 1 ∧
    source.toByteArray.data.toList.count newline < UInt32.size - 2 ∧
    (lines text)[2]? = some ['β', '\r'] ∧ table.lineText? text 3 = some ['β'] ∧
    table.lineText? text 4 = none ∧
    (IsBoundary text 5 ∧ ¬IsBoundary text 6 ∧ IsBoundary text 8) ∧
    ∃ endings, endings.length = 3 ∧ (∀ ending ∈ endings, ending = [] ∨ ending = ['\r']) ∧
      joinLines (List.zipWith (· ++ ·) (table.texts text) endings) = text := by
  intro source text table
  have short : source.utf8ByteSize < UInt32.size - 1 := by decide +kernel
  have few : source.toByteArray.data.toList.count newline < UInt32.size - 2 := by decide +kernel
  have third : (lines text)[2]? = some ['β', '\r'] := by decide +kernel
  have start : table.lineStart? 3 = some 5 := by decide +kernel
  obtain ⟨-, none, pieces, slices, -, joined⟩ := line_texts_split_source source short few
  obtain ⟨line, found, rest⟩ := pieces 3 ['β', '\r'] (by decide) third
  obtain ⟨-, first, last, -⟩ := slices 3 5 start
  have stop : table.lineStop text 3 = 8 := by decide +kernel
  obtain rfl : line = ['β'] := by
    rcases rest with ⟨-, other⟩ | same
    · exact absurd rfl other
    · exact (List.append_inj_left' same rfl).symm
  exact ⟨short, few, third, found, (none 4).mpr (.inr (by decide +kernel)),
    ⟨first, by decide +kernel, stop ▸ last⟩, joined⟩

/-- A source can have so many lines that the number of the last one is the last word. There is a
line of that number, and the number behind it, at which its end is looked up, is not a word. -/
theorem number_behind_last_piece_is_no_word :
    let source := newlines (UInt32.size - 2)
    let table := LineTable.ofText source.toList
    source.utf8ByteSize < UInt32.size - 1 ∧
    (∃ start, table.lineStart? 4294967295 = some start) ∧
    ¬∀ number start, table.lineStart? number = some start →
      (number + 1).toNat = number.toNat + 1 := by
  intro source table
  have short : source.utf8ByteSize < UInt32.size - 1 := by
    rw [utf8ByteSize_newlines]
    decide
  obtain ⟨start, found⟩ : ∃ start, table.lineStart? 4294967295 = some start :=
    (exists_lineStart?_newlines (by decide)).mpr (by decide)
  refine ⟨short, ⟨start, found⟩, fun exactly => ?_⟩
  exact absurd (exactly 4294967295 start found) (by decide)

end Treewalk.Source
