/-
This file proves how many markers a snippet has under a span within one line.

The line and the blanks in front of the markers are those of the span, whatever characters there
are. The last marker is found by the last byte of the span, though. If the last character has only
that byte, its column counts characters, and there are as many markers as characters. If the
character has more bytes, the last of them is inside it, the column counts bytes from the start of
the line on, and there are too many markers (`markerCount`).
-/
import Treewalk.Proofs.Columns
import Treewalk.Proofs.Snippets

namespace Treewalk.Source

open LineTable

/-! ### Newlines in front of an offset -/

theorem bytes_append (front rest : List Char) : bytes (front ++ rest) = bytes front ++ bytes rest :=
  List.flatMap_append

/-- The bytes up to the end of a character are those of the characters up to there. -/
theorem take_bytes (front rest : List Char) :
    (bytes (front ++ rest)).take (byteLength front) = bytes front := by
  rw [bytes_append, ← length_bytes, List.take_left]

theorem newline_mem_bytes_iff {text : List Char} : newline ∈ bytes text ↔ '\n' ∈ text := by
  unfold bytes
  simp only [List.mem_flatMap, newline_mem_utf8EncodeChar_iff, exists_eq_right]

/-! ### Counting markers -/

/-- How many markers there are under characters of a line that have others in front of them. -/
def markerCount (before covered : List Char) : Nat :=
  if covered.getLast?.any (·.utf8Size = 1) then covered.length
  else byteLength (before ++ covered) - before.length

theorem markerCount_of_short {before most : List Char} {last : Char} (one : last.utf8Size = 1) :
    markerCount before (most ++ [last]) = most.length + 1 := by
  unfold markerCount
  rw [List.getLast?_concat, Option.any_some, if_pos (decide_eq_true one), List.length_append]
  rfl

theorem markerCount_of_long {before most : List Char} {last : Char} (more : last.utf8Size ≠ 1) :
    markerCount before (most ++ [last]) =
      byteLength (before ++ (most ++ [last])) - before.length := by
  unfold markerCount
  rw [List.getLast?_concat, Option.any_some, if_neg]
  rw [decide_eq_true_iff]
  exact more

/-- There is a marker for every character, and there are more if the last character has more than
one byte. -/
theorem markerCount_eq_length_iff (before most : List Char) (last : Char) :
    most.length + 1 ≤ markerCount before (most ++ [last]) ∧
      (markerCount before (most ++ [last]) = most.length + 1 ↔ last.utf8Size = 1) := by
  by_cases one : last.utf8Size = 1
  · rw [markerCount_of_short one]
    exact ⟨Nat.le_refl _, iff_of_true rfl one⟩
  · have positive := last.utf8Size_pos
    have few := length_le_byteLength before
    have few' := length_le_byteLength most
    rw [markerCount_of_long one, byteLength_append, byteLength_append, byteLength_cons,
      byteLength_nil]
    omega

theorem toNat_lastByte_of_lt {span : Span} (nonempty : span.start < span.stop) :
    (lastByte span).toNat = span.stop.toNat - 1 := by
  rw [toNat_lastByte, Nat.max_eq_left]
  exact Nat.le_trans (Nat.min_le_left ..) (UInt32.lt_iff_toNat_lt.mp nonempty)

/-- A span that is not empty covers a last character. -/
theorem exists_last {span : Span} {covered : List Char} (nonempty : span.start < span.stop)
    (stops : span.start.toNat + byteLength covered = span.stop.toNat) :
    ∃ most last, covered = most ++ [last] := by
  rcases List.eq_nil_or_concat covered with rfl | ⟨most, last, rfl⟩
  · rw [UInt32.lt_iff_toNat_lt, ← stops] at nonempty
    exact absurd nonempty (Nat.lt_irrefl _)
  · exact ⟨most, last, List.concat_eq_append⟩

section Short

variable {text : List Char} (short : byteLength text < UInt32.size - 1) {span : Span}

include short

/-! ### The line of a span -/

/-- A span that covers no newline is within one line, also at its last byte. -/
theorem exists_covered_line {covered : List Char} (nonempty : span.start < span.stop)
    (covers : slice? text span.start.toNat span.stop.toNat = some covered)
    (single : '\n' ∉ covered) :
    ∃ start above before after below,
      (ofText text).lineStart? ((ofText text).lineOf span.start) = some start ∧
      byteLength above = start.toNat ∧ byteLength (above ++ before) = span.start.toNat ∧
      span.start.toNat + byteLength covered = span.stop.toNat ∧
      IsLine text above (before ++ covered ++ after) below ∧
      (lines text)[((ofText text).lineOf span.start).toNat - 1]? =
        some (before ++ covered ++ after) ∧
      (ofText text).lineOf (lastByte span) = (ofText text).lineOf span.start := by
  obtain ⟨front, rest, whole, starts, stops⟩ := slice?_eq_some_iff.mp covers
  have last := toNat_lastByte_of_lt nonempty
  have less := UInt32.lt_iff_toNat_lt.mp nonempty
  have place : byteLength (front ++ covered) = span.stop.toNat := by
    rw [byteLength_append, starts, stops]
  have none : (bytes covered).count newline = 0 :=
    List.count_eq_zero.mpr fun member => single (newline_mem_bytes_iff.mp member)
  have same : (ofText text).lineOf span.stop = (ofText text).lineOf span.start := by
    rw [← UInt32.toNat_inj, toNat_lineOf short, toNat_lineOf short, whole, ← place, take_bytes,
      ← starts, List.append_assoc front, take_bytes, bytes_append, List.count_append, none,
      Nat.add_zero]
  have early : span.start ≤ lastByte span := by
    rw [UInt32.le_iff_toNat_le, last]
    omega
  have late : lastByte span ≤ span.stop := by
    rw [UInt32.le_iff_toNat_le, last]
    omega
  have within : (ofText text).lineOf (lastByte span) = (ofText text).lineOf span.start :=
    UInt32.le_antisymm (same ▸ lineOf_mono short late) (lineOf_mono short early)
  obtain ⟨start, above, before', after, below, found, begins, divided, rfl, isLine, line⟩ :=
    exists_divided_line short whole place
  rw [same] at found line
  obtain ⟨start', found', early⟩ := exists_lineStart?_lineOf short span.start
  obtain rfl : start = start' := Option.some.inj (found.symm.trans found')
  rw [UInt32.le_iff_toNat_le, ← begins, ← starts] at early
  obtain ⟨before, rfl, rfl⟩ := exists_eq_append divided.symm early
  exact ⟨start, above, before, after, below, found, begins, starts, stops, isLine, line, within⟩

/-! ### Markers under a span -/

/-- The column of the last byte of a span, by the number of markers that end there. -/
theorem toNat_column_lastByte {start : UInt32} {above before covered rest : List Char}
    (found : (ofText text).lineStart? ((ofText text).lineOf (lastByte span)) = some start)
    (whole : text = above ++ before ++ covered ++ rest) (begins : byteLength above = start.toNat)
    (starts : byteLength (above ++ before) = span.start.toNat)
    (stops : span.start.toNat + byteLength covered = span.stop.toNat)
    (nonempty : span.start < span.stop) :
    ((ofText text).locate text (lastByte span)).2.toNat =
      before.length + markerCount before covered := by
  obtain ⟨most, last, rfl⟩ := exists_last nonempty stops
  have position := toNat_lastByte_of_lt nonempty
  have few := length_le_byteLength before
  have size : byteLength (most ++ [last]) = byteLength most + last.utf8Size := by
    rw [byteLength_append]
    rfl
  have whole' : text = above ++ (before ++ most) ++ last :: rest := by
    rw [whole]
    simp only [List.append_assoc, List.singleton_append]
  have behind : byteLength (above ++ (before ++ most)) + last.utf8Size = span.stop.toNat := by
    rw [← List.append_assoc, byteLength_append, starts]
    omega
  by_cases one : last.utf8Size = 1
  · rw [markerCount_of_short one, toNat_column short found whole' begins (by omega),
      List.length_append, Nat.add_assoc]
  · have positive := last.utf8Size_pos
    have ahead : byteLength (above ++ (before ++ most) ++ [last]) = span.stop.toNat := by
      rw [byteLength_append, ← behind]
      rfl
    rw [markerCount_of_long one,
      toNat_column_inside short found whole' begins (by omega) (by omega), byteLength_append before,
      ← begins]
    rw [byteLength_append] at starts
    omega

/-- The snippet of a span that is within one line. -/
theorem snippetLines_eq {characters : List Char}
    (line : (lines text)[((ofText text).lineOf span.start).toNat - 1]? = some characters)
    (same : (ofText text).lineOf (lastByte span) = (ofText text).lineOf span.start) :
    snippetLines text span =
      [shownLine (withoutReturn characters),
        markers (((ofText text).locate text span.start).2.toNat - 1)
          ((ofText text).locate text (lastByte span)).2.toNat] := by
  have numbered : (ofText text).lineOf span.start ≠ 0 := by
    intro zero
    have number := toNat_lineOf short span.start
    rw [zero] at number
    cases number
  unfold snippetLines
  simp only [fst_locate, same, Nat.add_sub_cancel_left]
  rw [markedLines, lineText?_ofText short numbered line]
  simp only [fst_locate, same, if_true, markedLines]

end Short

theorem joinLines_two (line line' : List Char) :
    joinLines [line, line'] = line ++ ['\n'] ++ line' := by
  rw [List.append_assoc]
  rfl

/-- The snippet of a span within one line is this line and, below the characters of the span, at
least as many markers. There are just as many if the last character of the span has one byte. If it
has more, then there are too many. -/
theorem markers_end_at_last_byte (source : String) (span : Span) (covered : List Char)
    (short : source.utf8ByteSize < UInt32.size - 1) (nonempty : span.start < span.stop)
    (covers : slice? source.toList span.start.toNat span.stop.toNat = some covered)
    (single : '\n' ∉ covered) :
    ∃ above before after below,
      IsLine source.toList above (before ++ covered ++ after) below ∧
      byteLength (above ++ before) = span.start.toNat ∧
      underline source span =
        String.ofList (shownLine (withoutReturn (before ++ covered ++ after))) ++ "\n" ++
          String.ofList (List.replicate before.length ' ') ++
          String.ofList (List.replicate (markerCount before covered) '^') ∧
      covered.length ≤ markerCount before covered ∧
      (markerCount before covered = covered.length ↔
        ∃ last, covered.getLast? = some last ∧ last.utf8Size = 1) := by
  have fits : byteLength source.toList < UInt32.size - 1 := by
    rw [byteLength_toList]
    exact short
  obtain ⟨start, above, before, after, below, found, begins, starts, stops, isLine, line, same⟩ :=
    exists_covered_line fits nonempty covers single
  have whole : source.toList = above ++ before ++ covered ++ (after ++ below) := by
    rw [isLine.whole]
    simp only [List.append_assoc]
  have first : ((ofText source.toList).locate source.toList span.start).2.toNat =
      before.length + 1 :=
    toNat_column fits found (whole.trans (List.append_assoc ..)) begins starts
  have last := toNat_column_lastByte fits (same ▸ found) whole begins starts stops nonempty
  obtain ⟨most, final, rfl⟩ := exists_last nonempty stops
  obtain ⟨enough, exact⟩ := markerCount_eq_length_iff before most final
  have some : 1 ≤ markerCount before (most ++ [final]) := Nat.le_trans (Nat.le_add_left ..) enough
  refine ⟨above, before, after, below, isLine, starts, ?_, ?_, ?_⟩
  · unfold underline
    rw [snippetLines_eq fits line same, first, last, joinLines_two, markers, Nat.add_sub_cancel,
      Nat.add_sub_cancel_left, Nat.max_eq_right some]
    simp only [String.ofList_append, String.append_assoc]
  · rw [List.length_append]
    exact enough
  · rw [List.length_append, List.getLast?_concat]
    simp only [Option.some.injEq, exists_eq_left']
    exact exact

/-- Three letters, with two markers under the last two of them. -/
theorem two_markers_behind_blank :
    let source := "αβc\n"
    let span : Span := ⟨2, 5⟩
    source.utf8ByteSize < UInt32.size - 1 ∧ span.start < span.stop ∧
    slice? source.toList span.start.toNat span.stop.toNat = some ['β', 'c'] ∧ '\n' ∉ ['β', 'c'] ∧
    underline source span = "αβc\n ^^" ∧
    ∃ above before after below,
      IsLine source.toList above (before ++ ['β', 'c'] ++ after) below ∧
      byteLength (above ++ before) = span.start.toNat ∧
      underline source span =
        String.ofList (shownLine (withoutReturn (before ++ ['β', 'c'] ++ after))) ++ "\n" ++
          String.ofList (List.replicate before.length ' ') ++
          String.ofList (List.replicate (markerCount before ['β', 'c']) '^') ∧
      ['β', 'c'].length ≤ markerCount before ['β', 'c'] ∧
      (markerCount before ['β', 'c'] = ['β', 'c'].length ↔
        ∃ last, ['β', 'c'].getLast? = some last ∧ last.utf8Size = 1) := by
  intro source span
  have short : source.utf8ByteSize < UInt32.size - 1 := by decide +kernel
  have nonempty : span.start < span.stop := by decide
  have covers : slice? source.toList span.start.toNat span.stop.toNat = some ['β', 'c'] := by
    decide +kernel
  have single : '\n' ∉ ['β', 'c'] := by decide
  exact ⟨short, nonempty, covers, single, by decide +kernel,
    markers_end_at_last_byte source span ['β', 'c'] short nonempty covers single⟩

/-- One letter of two bytes, with two markers under it. -/
theorem two_markers_under_one_letter :
    let source := "é"
    let span : Span := ⟨0, 2⟩
    source.utf8ByteSize < UInt32.size - 1 ∧ span.start < span.stop ∧
    slice? source.toList span.start.toNat span.stop.toNat = some ['é'] ∧ '\n' ∉ ['é'] ∧
    underline source span = "é\n^^" ∧ underline source span ≠ "é\n^" := by
  decide +kernel

end Treewalk.Source
