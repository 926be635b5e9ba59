/-
This file proves where the snippet of a span starts: with the line that the span starts on, whatever
the two offsets of the span are.

A span that is empty or inverted touches the byte that it starts at, so the last byte of a span is
not in front of the first (`toNat_lastByte`), with one exception. The largest offset has nothing
behind it, and a span that starts there has its last byte in front of it. No line starts at the
largest offset, though, when the source is short enough.
-/
import Treewalk.Proofs.Lines

namespace Treewalk.Source

open LineTable

theorem toNat_lastByte (span : Span) :
    (lastByte span).toNat =
      max span.stop.toNat (min (span.start.toNat + 1) (UInt32.size - 1)) - 1 := by
  have word := span.start.toNat_lt_size
  have behind : (UInt32.ofNatClamp (span.start.toNat + 1)).toNat =
      min (span.start.toNat + 1) (UInt32.size - 1) := by
    by_cases fits : span.start.toNat + 1 < UInt32.size
    · rw [toNat_ofNatClamp fits, Nat.min_eq_left (by omega)]
    · rw [UInt32.ofNatClamp, dif_neg fits, Nat.min_eq_right (by omega)]
      rfl
  have greater : (max span.stop (UInt32.ofNatClamp (span.start.toNat + 1))).toNat =
      max span.stop.toNat (min (span.start.toNat + 1) (UInt32.size - 1)) := by
    rw [← behind]
    show (if span.stop ≤ _ then _ else _ : UInt32).toNat = _
    split
    next below => exact (Nat.max_eq_right (UInt32.le_iff_toNat_le.mp below)).symm
    next above =>
      have less := UInt32.lt_iff_toNat_lt.mp (UInt32.not_le.mp above)
      exact (Nat.max_eq_left (Nat.le_of_lt less)).symm
  unfold lastByte
  rw [UInt32.toNat_sub_of_le, greater]
  · rfl
  · have size : UInt32.size = 4294967296 := rfl
    rw [UInt32.le_iff_toNat_le, greater, UInt32.toNat_one]
    omega

section Short

variable {source : String} (short : byteLength source.toList < UInt32.size - 1)

include short

theorem toNat_lineOf_source (offset : UInt32) :
    ((ofText source.toList).lineOf offset).toNat = newlinesBefore source offset + 1 := by
  rw [toNat_lineOf short, bytes_toList]
  rfl

/-- No span ends on a line before the one that it starts on. The last byte of a span is in front of
its start when this is the largest offset, but then there is no byte left in the source. -/
theorem newlinesBefore_start_le (span : Span) :
    newlinesBefore source span.start ≤ newlinesBefore source (lastByte span) := by
  have last := toNat_lastByte span
  have inside : min span.start.toNat (byteLength source.toList) ≤ (lastByte span).toNat := by omega
  unfold newlinesBefore
  rw [← bytes_toList, List.take_eq_take_min, length_bytes]
  exact (List.take_sublist_take_left inside).count_le _

/-- Every offset is in a line, and the table finds its text. -/
theorem exists_line (offset : UInt32) :
    ∃ line, (lines source.toList)[newlinesBefore source offset]? = some line ∧
      (ofText source.toList).lineText? source.toList ((ofText source.toList).lineOf offset) =
        some (withoutReturn line) := by
  have number := toNat_lineOf_source short offset
  have fewer : newlinesBefore source offset ≤ (bytes source.toList).count newline := by
    rw [bytes_toList]
    exact (List.take_sublist ..).count_le _
  have inside : newlinesBefore source offset < (lines source.toList).length := by
    rw [length_lines]
    omega
  refine ⟨_, List.getElem?_eq_getElem inside, lineText?_ofText short (fun zero => ?_) ?_⟩
  · rw [zero] at number
    cases number
  · rw [number]
    exact List.getElem?_eq_getElem inside

/-- A snippet starts with the line that the span starts on. -/
theorem exists_underline_eq (span : Span) :
    ∃ line rest, (lines source.toList)[newlinesBefore source span.start]? = some line ∧
      underline source span = String.ofList (shownLine (withoutReturn line)) ++ "\n" ++ rest := by
  obtain ⟨line, found, shown⟩ := exists_line short span.start
  have first := toNat_lineOf_source short span.start
  have last := toNat_lineOf_source short (lastByte span)
  have inOrder := newlinesBefore_start_le short span
  obtain ⟨count, size⟩ : ∃ count, ((ofText source.toList).lineOf (lastByte span)).toNat + 1 -
      ((ofText source.toList).lineOf span.start).toNat = count + 1 :=
    ⟨newlinesBefore source (lastByte span) - newlinesBefore source span.start, by omega⟩
  obtain ⟨marks, rest, marked⟩ : ∃ marks rest, snippetLines source.toList span =
      shownLine (withoutReturn line) :: marks :: rest := by
    unfold snippetLines
    simp only [fst_locate]
    rw [size, markedLines, shown]
    exact ⟨_, _, rfl⟩
  refine ⟨line, String.ofList (joinLines (marks :: rest)), found, ?_⟩
  have joined : joinLines (shownLine (withoutReturn line) :: marks :: rest) =
      shownLine (withoutReturn line) ++ ['\n'] ++ joinLines (marks :: rest) := by
    rw [List.append_assoc]
    rfl
  unfold underline
  rw [marked, joined, String.ofList_append, String.ofList_append]

end Short

end Treewalk.Source
