/-
This file proves that the snippet of a span shows the lines that the span touches, all of them and
nothing else, whatever the two offsets of the span are.

The numbers that the lookups come to are exact, as if words had no end (`ExactNumbers`). The largest
of them is the number of the line behind the last one. It is a word if the source has fewer newlines
than there are words, less two. There is one source with as many newlines as that whose offsets are
words, and there the sum leaves the words (`number_behind_last_line_is_no_word`).

So the line of the start, the line of the last byte and all lines between them are lines of the
source, and the snippet has two lines for each of them (`markedLines_eq`): the line as it is shown,
and its markers. What was joined can be taken apart again, since neither has a newline in it
(`lines_joinLines`).
-/
import Treewalk.Proofs.Columns
import Treewalk.Proofs.Snippets

namespace Treewalk.Source

/-! ### Exact numbers -/

/-- How many characters of its line are in front of an offset. Where they are no whole characters,
bytes are counted. -/
def LineTable.before (table : LineTable) (text : List Char) (offset : UInt32) : Nat :=
  let start := ((table.lineStart? (table.lineOf offset)).getD 0).toNat
  let stop := min offset.toNat (byteLength text)
  match slice? text start stop with
  | some characters => characters.length
  | none => stop - start

/-- Whether the numbers that a snippet of a source is made from are those of unbounded
arithmetic. -/
structure ExactNumbers (source : String) (span : Span) : Prop where
  /-- The table has the offsets at which the lines start. -/
  starts : (LineTable.ofText source.toList).starts.map UInt32.toNat =
    startsOf 0 (lines source.toList)
  /-- What the last byte is in front of is not the first offset. -/
  last : (lastByte span).toNat + 1 =
    max span.stop.toNat (min (span.start.toNat + 1) (UInt32.size - 1))
  line : ∀ offset, ((LineTable.ofText source.toList).lineOf offset).toNat =
    newlinesBefore source offset + 1
  /-- A line starts no later than at the offsets that it is looked up for. -/
  early : ∀ offset start,
    (LineTable.ofText source.toList).lineStart?
        ((LineTable.ofText source.toList).lineOf offset) = some start →
      start.toNat ≤ min offset.toNat (byteLength source.toList)
  column : ∀ offset, ((LineTable.ofText source.toList).locate source.toList offset).2.toNat =
    (LineTable.ofText source.toList).before source.toList offset + 1
  /-- The number behind that of a line is larger by one. -/
  next : ∀ line : UInt32, line.toNat ≤ (lines source.toList).length →
    (line + 1).toNat = line.toNat + 1
  /-- A line ends in front of the start of the next one, and if there is none, at the end. -/
  behind : ∀ line start, (LineTable.ofText source.toList).lineStart? line = some start →
    match (LineTable.ofText source.toList).lineStart? (line + 1) with
    | some next => line.toNat < (lines source.toList).length ∧ start.toNat < next.toNat
    | none => line.toNat = (lines source.toList).length ∧ start.toNat ≤ byteLength source.toList

namespace LineTable

/-- The number behind that of a line is larger by one if there are not too many lines. -/
theorem toNat_next {text : List Char} (few : (bytes text).count newline < UInt32.size - 2)
    {line : UInt32} (numbered : line.toNat ≤ (lines text).length) :
    (line + 1).toNat = line.toNat + 1 := by
  rw [length_lines] at numbered
  exact toNat_add_one (by omega)

/-- No more characters are in front of an offset than the text has bytes. -/
theorem before_le (table : LineTable) (text : List Char) (offset : UInt32) :
    table.before text offset ≤ byteLength text := by
  unfold before
  dsimp only
  split
  next characters slice =>
    obtain ⟨front, rest, whole, -⟩ := slice?_eq_some_iff.mp slice
    have few := length_le_byteLength characters
    rw [whole, byteLength_append, byteLength_append]
    omega
  next => exact Nat.le_trans (Nat.sub_le ..) (Nat.min_le_right ..)

section Short

variable {text : List Char} (short : byteLength text < UInt32.size - 1)

include short

theorem length_lines_le : (lines text).length ≤ UInt32.size - 1 := by
  have few := count_newline_le text
  rw [length_lines]
  omega

theorem map_starts : (ofText text).starts.map UInt32.toNat = startsOf 0 (lines text) :=
  map_lineStartsFrom (by omega : 0 + byteLength text < UInt32.size)

theorem toNat_column_eq (table : LineTable) (offset : UInt32) :
    (table.locate text offset).2.toNat = table.before text offset + 1 :=
  toNat_ordinal (Nat.lt_of_le_of_lt (before_le ..) short)

theorem start_le_byteLength {line start : UInt32}
    (found : (ofText text).lineStart? line = some start) : start.toNat ≤ byteLength text := by
  obtain ⟨above, characters, below, isLine, -, begins, -⟩ := exists_isLine short found
  have within := congrArg byteLength isLine.whole
  rw [byteLength_append, byteLength_append] at within
  omega

/-- The line of an offset starts within the text and no later than at the offset. -/
theorem start_le_min {offset start : UInt32}
    (found : (ofText text).lineStart? ((ofText text).lineOf offset) = some start) :
    start.toNat ≤ min offset.toNat (byteLength text) := by
  obtain ⟨start', found', early⟩ := exists_lineStart?_lineOf short offset
  obtain rfl : start = start' := Option.some.inj (found.symm.trans found')
  have within := start_le_byteLength short found
  have words := UInt32.le_iff_toNat_le.mp early
  omega

/-- Behind a line comes the next one, or it is the last one and the text ends. -/
theorem line_behind {line start : UInt32} (found : (ofText text).lineStart? line = some start) :
    match (ofText text).lineStart? (line + 1) with
    | some next => line.toNat < (lines text).length ∧ start.toNat < next.toNat
    | none => line.toNat = (lines text).length ∧ start.toNat ≤ byteLength text := by
  have place : ((ofText text).lineStart? (line + 1)).map UInt32.toNat =
      (startsOf 0 (lines text))[line.toNat]? := lineStart?_add_one short
  cases known : (ofText text).lineStart? (line + 1) with
  | some next =>
    have later : start < next := by
      refine lt_of_lineStart?_next short ?_
      rw [lineOf_lineStart? short found]
      exact known
    rw [known, Option.map_some] at place
    have inside := (List.getElem?_eq_some_iff.mp place.symm).1
    rw [length_startsOf] at inside
    exact ⟨inside, UInt32.lt_iff_toNat_lt.mp later⟩
  | none =>
    rw [known, Option.map_none] at place
    have outside := List.getElem?_eq_none_iff.mp place.symm
    have numbered := ((exists_lineStart?_iff short).mp ⟨start, found⟩).2
    rw [length_startsOf, length_lines] at outside
    exact ⟨by rw [length_lines]; omega, start_le_byteLength short found⟩

end Short

end LineTable

theorem toNat_lastByte_add_one (span : Span) :
    (lastByte span).toNat + 1 =
      max span.stop.toNat (min (span.start.toNat + 1) (UInt32.size - 1)) := by
  have size : UInt32.size = 4294967296 := rfl
  have last := toNat_lastByte span
  omega

theorem exactNumbers {source : String} (short : source.utf8ByteSize < UInt32.size - 1)
    (few : source.toByteArray.data.toList.count newline < UInt32.size - 2) (span : Span) :
    ExactNumbers source span := by
  have fits : byteLength source.toList < UInt32.size - 1 := by
    rw [byteLength_toList]
    exact short
  rw [← bytes_toList] at few
  exact {
    starts := LineTable.map_starts fits
    last := toNat_lastByte_add_one span
    line := toNat_lineOf_source fits
    early := fun offset start => LineTable.start_le_min fits
    column := LineTable.toNat_column_eq fits _
    next := fun line => LineTable.toNat_next few
    behind := fun line start => LineTable.line_behind fits
  }

/-! ### Sources of newlines -/

/-- A source that is nothing but newlines. -/
def newlines (count : Nat) : String := String.ofList (List.replicate count '\n')

theorem bytes_newlines (count : Nat) :
    bytes (newlines count).toList = List.replicate count newline := by
  unfold newlines
  rw [String.toList_ofList]
  induction count with
  | zero => rfl
  | succ count inductionHypothesis =>
    rw [List.replicate_succ, List.replicate_succ, bytes_cons, inductionHypothesis]
    rfl

theorem utf8ByteSize_newlines (count : Nat) : (newlines count).utf8ByteSize = count := by
  rw [← byteLength_toList, ← length_bytes, bytes_newlines, List.length_replicate]

theorem newlinesBefore_newlines (count : Nat) (offset : UInt32) :
    newlinesBefore (newlines count) offset = min offset.toNat count := by
  unfold newlinesBefore
  rw [← bytes_toList, bytes_newlines, List.take_replicate, List.count_replicate_self]

theorem exists_lineStart?_newlines {count : Nat} (short : count < UInt32.size - 1)
    {line : UInt32} :
    (∃ start, (LineTable.ofText (newlines count).toList).lineStart? line = some start) ↔
      1 ≤ line.toNat ∧ line.toNat ≤ count + 1 := by
  have fits : byteLength (newlines count).toList < UInt32.size - 1 := by
    rw [byteLength_toList, utf8ByteSize_newlines]
    exact short
  rw [LineTable.exists_lineStart?_iff fits, bytes_newlines, List.count_replicate_self]

/-! ### The lines of a snippet -/

/-- What is shown of a line of a text, by its number: the line and the line of its markers. -/
def block (text : List Char) (first last : UInt32 × UInt32) (number : Nat) :
    List Char × List Char :=
  let characters := withoutReturn ((lines text)[number - 1]?.getD [])
  (shownLine characters,
    markers (if number = first.1.toNat then first.2.toNat - 1 else 0)
      (if number = last.1.toNat then last.2.toNat else characters.length))

/-- What is shown of the lines that a span touches. -/
def blocks (text : List Char) (span : Span) : List (List Char × List Char) :=
  let first := (LineTable.ofText text).locate text span.start
  let last := (LineTable.ofText text).locate text (lastByte span)
  (List.range' first.1.toNat (last.1.toNat + 1 - first.1.toNat)).map (block text first last)

/-- As long as there are lines, a snippet has a block for each of them. -/
theorem markedLines_eq {text : List Char} (short : byteLength text < UInt32.size - 1)
    (first last : UInt32 × UInt32) {count : Nat} {line : UInt32} (numbered : line ≠ 0)
    (within : line.toNat + count ≤ (lines text).length + 1) :
    markedLines (LineTable.ofText text) text first last count line =
      ((List.range' line.toNat count).map (block text first last)).flatMap
        fun shown => [shown.1, shown.2] := by
  induction count generalizing line with
  | zero => rfl
  | succ count inductionHypothesis =>
    have positive : line.toNat ≠ 0 := fun zero => numbered (UInt32.toNat_inj.mp zero)
    obtain ⟨characters, found⟩ : ∃ characters, (lines text)[line.toNat - 1]? = some characters :=
      ⟨_, List.getElem?_eq_getElem (by omega)⟩
    have later : markedLines (LineTable.ofText text) text first last count (line + 1) =
        ((List.range' (line.toNat + 1) count).map (block text first last)).flatMap
          fun shown => [shown.1, shown.2] := by
      cases count with
      | zero => rfl
      | succ count =>
        -- There is a next line, so its number is still a word.
        have few := LineTable.length_lines_le short
        have next : (line + 1).toNat = line.toNat + 1 :=
          toNat_add_one (by omega)
        rw [← next]
        refine inductionHypothesis (fun zero => ?_) (by omega)
        rw [zero] at next
        cases next
    rw [markedLines, LineTable.lineText?_ofText short numbered found, later, List.range'_succ,
      List.map_cons, List.flatMap_cons, block, found]
    simp only [UInt32.toNat_inj]
    rfl

/-! ### Taking a snippet apart -/

theorem joinLines_eq_intercalate (pieces : List (List Char)) :
    joinLines pieces = ['\n'].intercalate pieces := by
  induction pieces with
  | nil => rfl
  | cons piece rest inductionHypothesis =>
    cases rest with
    | nil => exact (List.append_nil piece).symm
    | cons next rest =>
      show piece ++ '\n' :: joinLines (next :: rest) = _
      rw [inductionHypothesis]
      rfl

/-- Lines that were joined are the lines of what they were joined to. -/
theorem lines_joinLines {pieces : List (List Char)} (some : pieces ≠ [])
    (single : ∀ piece ∈ pieces, '\n' ∉ piece) : lines (joinLines pieces) = pieces := by
  rw [joinLines_eq_intercalate]
  exact List.splitOn_intercalate '\n' single some

theorem newline_not_mem_shownLine {line : List Char} (single : '\n' ∉ line) :
    '\n' ∉ shownLine (withoutReturn line) := by
  have subset : withoutReturn line ⊆ line := by
    unfold withoutReturn
    split
    · exact List.dropLast_subset line
    · exact List.Subset.refl line
  intro member
  obtain ⟨character, inside, shown⟩ := List.mem_map.mp member
  split at shown
  · cases shown
  · exact single (subset (shown ▸ inside))

theorem newline_not_mem_markers (start stop : Nat) : '\n' ∉ markers start stop := by
  intro member
  rcases List.mem_append.mp member with blank | mark
  · cases (List.mem_replicate.mp blank).2
  · cases (List.mem_replicate.mp mark).2

/-- Whether two lines show a line of a text, by its number and those of the first and the last
touched line: the line itself, and a line with markers. Only the first one may have blanks in front
of the markers, and between the first and the last one there is a marker for every character. -/
def ShowsLine (text : List Char) (first last number : Nat) (shown : List Char × List Char) : Prop :=
  ∃ line spaces marks, (lines text)[number - 1]? = some line ∧
    shown = (shownLine (withoutReturn line),
      List.replicate spaces ' ' ++ List.replicate marks '^') ∧
    1 ≤ marks ∧ (number ≠ first → spaces = 0) ∧
    (first < number → number < last → marks = max 1 (withoutReturn line).length)

theorem showsLine_block {text line : List Char} (first last : UInt32 × UInt32) {number : Nat}
    (found : (lines text)[number - 1]? = some line) :
    ShowsLine text first.1.toNat last.1.toNat number (block text first last number) := by
  unfold block
  rw [found]
  refine ⟨line, _, _, found, rfl, Nat.le_max_left .., fun other => if_neg other,
    fun after before => ?_⟩
  rw [if_neg (Nat.ne_of_gt after), if_neg (Nat.ne_of_lt before)]
  rfl

theorem newline_not_mem_block {text : List Char} {first last : UInt32 × UInt32} {number : Nat} :
    ∀ piece ∈ [(block text first last number).1, (block text first last number).2],
      '\n' ∉ piece := by
  have single : '\n' ∉ (lines text)[number - 1]?.getD [] := by
    cases found : (lines text)[number - 1]? with
    | none => exact List.not_mem_nil
    | some line => exact newline_not_mem_of_mem_lines (List.mem_of_getElem? found)
  exact List.forall_mem_cons.mpr ⟨newline_not_mem_shownLine single,
    List.forall_mem_singleton.mpr (newline_not_mem_markers _ _)⟩

theorem length_flatMap_pair (shown : List (List Char × List Char)) :
    (shown.flatMap fun pair => [pair.1, pair.2]).length = 2 * shown.length := by
  induction shown with
  | nil => rfl
  | cons pair rest inductionHypothesis =>
    rw [List.flatMap_cons, List.length_append, inductionHypothesis]
    exact Nat.add_comm ..

section Span

variable {source : String} (short : byteLength source.toList < UInt32.size - 1) (span : Span)

include short

/-- The touched lines are lines of the source. -/
theorem toNat_lineOf_le (offset : UInt32) :
    ((LineTable.ofText source.toList).lineOf offset).toNat ≤ (lines source.toList).length := by
  have fewer : newlinesBefore source offset ≤ (bytes source.toList).count newline := by
    rw [bytes_toList]
    exact (List.take_sublist ..).count_le _
  rw [toNat_lineOf_source short, length_lines]
  omega

theorem lineOf_ne_zero (offset : UInt32) :
    (LineTable.ofText source.toList).lineOf offset ≠ 0 := by
  intro zero
  have number := toNat_lineOf_source short offset
  rw [zero] at number
  cases number

theorem lineOf_start_le :
    ((LineTable.ofText source.toList).lineOf span.start).toNat ≤
      ((LineTable.ofText source.toList).lineOf (lastByte span)).toNat := by
  have inOrder := newlinesBefore_start_le short span
  rw [toNat_lineOf_source short, toNat_lineOf_source short]
  omega

/-- There are as many blocks as lines from the first to the last one. -/
theorem length_blocks :
    (blocks source.toList span).length =
      ((LineTable.ofText source.toList).lineOf (lastByte span)).toNat -
        ((LineTable.ofText source.toList).lineOf span.start).toNat + 1 := by
  unfold blocks
  rw [List.length_map, List.length_range']
  exact Nat.succ_sub (lineOf_start_le short span)

/-- Every block shows the line that is as far behind the first one. -/
theorem showsLine_of_blocks {index : Nat} {shown : List Char × List Char}
    (known : (blocks source.toList span)[index]? = some shown) :
    ShowsLine source.toList ((LineTable.ofText source.toList).lineOf span.start).toNat
      ((LineTable.ofText source.toList).lineOf (lastByte span)).toNat
      (((LineTable.ofText source.toList).lineOf span.start).toNat + index) shown := by
  have inside := toNat_lineOf_le short (lastByte span)
  have numbered := toNat_lineOf_source short span.start
  have inOrder := lineOf_start_le short span
  have within := (List.getElem?_eq_some_iff.mp known).1
  rw [length_blocks short] at within
  unfold blocks at known
  rw [List.getElem?_map, LineTable.fst_locate, LineTable.fst_locate,
    List.getElem?_range' (by omega), Option.map_some, Option.some_inj, Nat.one_mul] at known
  rw [← known]
  exact showsLine_block _ _ (List.getElem?_eq_getElem (by omega))

/-- The lines of a snippet are those of its blocks. -/
theorem lines_underline :
    lines (underline source span).toList =
      (blocks source.toList span).flatMap fun shown => [shown.1, shown.2] := by
  have inOrder := lineOf_start_le short span
  have inside := toNat_lineOf_le short (lastByte span)
  obtain ⟨count, size⟩ : ∃ count,
      ((LineTable.ofText source.toList).lineOf (lastByte span)).toNat + 1 -
        ((LineTable.ofText source.toList).lineOf span.start).toNat = count + 1 :=
    ⟨_, Nat.succ_sub inOrder⟩
  unfold underline snippetLines blocks
  simp only [LineTable.fst_locate]
  rw [String.toList_ofList, markedLines_eq short _ _ (lineOf_ne_zero short _) (by omega)]
  refine lines_joinLines (fun none => ?_) fun piece member => ?_
  · rw [size, List.range'_succ] at none
    cases none
  · obtain ⟨shown, known, member⟩ := List.mem_flatMap.mp member
    obtain ⟨number, -, rfl⟩ := List.mem_map.mp known
    exact newline_not_mem_block piece member

end Span

/-- The snippet of any span shows the lines from that of its start to that of its last byte, and
each of them in two lines: the line itself without what ends it, and a line of markers with at least
one of them. Only the first of the marker lines may have blanks, and a line between the first and
the last one is marked all along. The table finds the text of each of these lines, and the numbers
on the way are those of unbounded arithmetic. -/
theorem snippet_shows_touched_lines (source : String) (span : Span)
    (short : source.utf8ByteSize < UInt32.size - 1)
    (few : source.toByteArray.data.toList.count newline < UInt32.size - 2) :
    let text := source.toList
    let first := (LineTable.ofText text).lineOf span.start
    let last := (LineTable.ofText text).lineOf (lastByte span)
    first ≤ last ∧ ExactNumbers source span ∧
    (∀ line, first ≤ line → line ≤ last → ∃ characters,
      (lines text)[line.toNat - 1]? = some characters ∧
        (LineTable.ofText text).lineText? text line = some (withoutReturn characters)) ∧
    (lines (underline source span).toList).length = 2 * (last.toNat - first.toNat + 1) ∧
    ∃ blocks : List (List Char × List Char),
      lines (underline source span).toList = (blocks.flatMap fun shown => [shown.1, shown.2]) ∧
      blocks.length = last.toNat - first.toNat + 1 ∧
      ∀ index shown, blocks[index]? = some shown →
        ShowsLine text first.toNat last.toNat (first.toNat + index) shown := by
  intro text first last
  have fits : byteLength text < UInt32.size - 1 := by
    rw [byteLength_toList]
    exact short
  have inside : last.toNat ≤ (lines text).length := toNat_lineOf_le fits (lastByte span)
  have numbered : first.toNat = newlinesBefore source span.start + 1 :=
    toNat_lineOf_source fits span.start
  refine ⟨UInt32.le_iff_toNat_le.mpr (lineOf_start_le fits span), exactNumbers short few span,
    fun line after before => ?_, ?_, blocks text span, lines_underline fits span,
    length_blocks fits span, fun index shown => showsLine_of_blocks fits span⟩
  · rw [UInt32.le_iff_toNat_le] at after before
    have found := List.getElem?_eq_getElem (by omega : line.toNat - 1 < (lines text).length)
    refine ⟨_, found, LineTable.lineText?_ofText fits (fun zero => ?_) found⟩
    rw [zero, numbered] at after
    cases after
  · rw [lines_underline fits span, length_flatMap_pair, length_blocks fits span]

/-- A span from inside the first character to behind the end, where lines end in different ways. -/
theorem three_lines_from_inside_letter :
    let source := "α\tb\r\n\nc"
    let span : Span := ⟨1, 4294967295⟩
    source.utf8ByteSize < UInt32.size - 1 ∧
    source.toByteArray.data.toList.count newline < UInt32.size - 2 ∧
    underline source span = "α b\n ^^\n\n^\nc\n^^" ∧
    (LineTable.ofText source.toList).lineOf span.start = 1 ∧
    (LineTable.ofText source.toList).lineOf (lastByte span) = 3 ∧ ExactNumbers source span ∧
    (lines (underline source span).toList).length = 2 * 3 ∧
    ∃ blocks : List (List Char × List Char),
      lines (underline source span).toList = (blocks.flatMap fun shown => [shown.1, shown.2]) ∧
      blocks.length = 3 ∧
      ∀ index shown, blocks[index]? = some shown →
        ShowsLine source.toList 1 3 (1 + index) shown := by
  intro source span
  have short : source.utf8ByteSize < UInt32.size - 1 := by decide +kernel
  have few : source.toByteArray.data.toList.count newline < UInt32.size - 2 := by decide +kernel
  have first : (LineTable.ofText source.toList).lineOf span.start = 1 := by decide +kernel
  have last : (LineTable.ofText source.toList).lineOf (lastByte span) = 3 := by decide +kernel
  obtain ⟨-, numbers, -, size, shows⟩ := snippet_shows_touched_lines source span short few
  rw [first, last] at size shows
  exact ⟨short, few, by decide +kernel, first, last, numbers, size, shows⟩

/-- A source can have so many lines that the number of the last one is the last word. A span behind
the end is in that line, and the number behind it is not a word. -/
theorem number_behind_last_line_is_no_word :
    let source := newlines (UInt32.size - 2)
    let span : Span := ⟨4294967295, 4294967295⟩
    let last := (LineTable.ofText source.toList).lineOf (lastByte span)
    source.utf8ByteSize < UInt32.size - 1 ∧
    (LineTable.ofText source.toList).lineOf span.start = last ∧ last = 4294967295 ∧
    (last + 1).toNat ≠ last.toNat + 1 ∧ ¬ExactNumbers source span := by
  intro source span last
  have size : source.utf8ByteSize = UInt32.size - 2 := utf8ByteSize_newlines _
  have short : source.utf8ByteSize < UInt32.size - 1 := by
    rw [size]
    decide
  have fits : byteLength source.toList < UInt32.size - 1 := by
    rw [byteLength_toList]
    exact short
  have number (offset : UInt32) : ((LineTable.ofText source.toList).lineOf offset).toNat =
      min offset.toNat (UInt32.size - 2) + 1 := by
    rw [toNat_lineOf_source fits, newlinesBefore_newlines]
  have first : (LineTable.ofText source.toList).lineOf span.start = 4294967295 :=
    UInt32.toNat_inj.mp (number 4294967295)
  have behind : lastByte span = 4294967294 := by decide
  have greatest : last = 4294967295 := UInt32.toNat_inj.mp (by rw [number, behind]; rfl)
  have sum : (last + 1).toNat ≠ last.toNat + 1 := by
    rw [greatest]
    decide
  refine ⟨short, first.trans greatest.symm, greatest, sum, fun exactly => sum ?_⟩
  exact exactly.next last (toNat_lineOf_le fits (lastByte span))

end Treewalk.Source
