/-
This file proves what a line table says about the text that it was made from, when the text is
short enough for its offsets and line numbers to be words.

Line starts ascend, so the halving search ends at the last one that is not past the target
(`searchFrom_eq`), and its place is the number of newlines in front of the target
(`toNat_lineOf`). Newlines are counted in the bytes of the text. No other character has a byte that
looks like one, which is why the lines that the table knows are those that the text is split into
at its newline characters (`lineText?_ofText`).
-/
import Treewalk.Source.Marker

namespace Treewalk.Source

/-! ### Words -/

theorem toNat_ofNatClamp {number : Nat} (fits : number < UInt32.size) :
    (UInt32.ofNatClamp number).toNat = number := by
  rw [UInt32.ofNatClamp_eq_ofNat _ fits, UInt32.toNat_ofNat_of_lt' fits]

theorem toNat_add_one {word : UInt32} (fits : word.toNat + 1 < UInt32.size) :
    (word + 1).toNat = word.toNat + 1 := by
  rw [UInt32.toNat_add]
  exact Nat.mod_eq_of_lt fits

theorem toNat_ordinal {index : Nat} (fits : index < UInt32.size - 1) :
    (ordinal index).toNat = index + 1 := by
  have word : (UInt32.ofNat index).toNat = index := UInt32.toNat_ofNat_of_lt' (by omega)
  unfold ordinal
  rw [if_pos (by omega), toNat_add_one (by omega), word]

/-! ### Binary search -/

section Search

variable {words : List UInt32} {target : UInt32}

/-- Of ascending words, those up to a target are at the front. -/
theorem getElem_le_iff_lt_countP (ascending : words.Pairwise (· ≤ ·)) {index : Nat}
    (inside : index < words.length) :
    words[index] ≤ target ↔ index < words.countP (· ≤ target) := by
  induction words generalizing index with
  | nil => cases inside
  | cons word rest inductionHypothesis =>
    obtain ⟨least, ascending⟩ := List.pairwise_cons.mp ascending
    by_cases below : word ≤ target
    · rw [List.countP_cons_of_pos (by simpa using below)]
      cases index with
      | zero => simpa using below
      | succ index =>
        rw [List.getElem_cons_succ, inductionHypothesis ascending, Nat.add_lt_add_iff_right]
    · have above : ∀ other ∈ word :: rest, ¬other ≤ target := by
        intro other member
        rcases List.mem_cons.mp member with rfl | member
        · exact below
        · exact fun under => below (UInt32.le_trans (least other member) under)
      have none : (word :: rest).countP (· ≤ target) = 0 := by
        rw [List.countP_eq_zero]
        simpa using above
      rw [none]
      exact iff_of_false (above _ (List.getElem_mem inside)) (Nat.not_lt_zero index)

/-- The search ends at the last word up to the target, if that is among the words it looks at. -/
theorem searchFrom_eq (ascending : words.Pairwise (· ≤ ·)) {base size : Nat}
    (inside : base + size ≤ words.length) (above : base < words.countP (· ≤ target))
    (below : words.countP (· ≤ target) ≤ base + size) :
    searchFrom words target base size = words.countP (· ≤ target) - 1 := by
  have front {index : Nat} (place : index < words.length) :
      words[index]?.getD 0 ≤ target ↔ index < words.countP (· ≤ target) := by
    rw [List.getElem?_eq_getElem place]
    exact getElem_le_iff_lt_countP ascending place
  induction base, size using searchFrom.induct words target with
  | case1 base size small =>
    rw [searchFrom, if_pos small]
    omega
  | case2 base size large middle past inductionHypothesis =>
    have behind : ¬middle < words.countP (· ≤ target) := fun before =>
      UInt32.not_lt.mpr ((front (by omega)).mpr before) past
    rw [searchFrom, if_neg large]
    exact (if_pos past).trans (inductionHypothesis (by omega) above (by omega))
  | case3 base size large middle upTo inductionHypothesis =>
    have before : middle < words.countP (· ≤ target) :=
      (front (by omega)).mp (UInt32.not_lt.mp upTo)
    rw [searchFrom, if_neg large]
    exact (if_neg upTo).trans (inductionHypothesis (by omega) before (by omega))

/-- What is found in ascending words is the last one up to the target, or the place behind it. -/
theorem search_eq_or (ascending : words.Pairwise (· ≤ ·))
    (some : 0 < words.countP (· ≤ target)) :
    search words target = .ok (words.countP (· ≤ target) - 1) ∨
      search words target = .error (words.countP (· ≤ target) - 1 + 1) := by
  have inside : words.countP (· ≤ target) ≤ words.length := List.countP_le_length
  have index : searchFrom words target 0 words.length = words.countP (· ≤ target) - 1 :=
    searchFrom_eq ascending (by omega) some (by omega)
  have place : words.countP (· ≤ target) - 1 < words.length := by omega
  have upTo : words[words.countP (· ≤ target) - 1] ≤ target :=
    (getElem_le_iff_lt_countP ascending place).mpr (by omega)
  unfold search
  simp only [index, List.getElem?_eq_getElem place]
  by_cases same : words[words.countP (· ≤ target) - 1] = target
  · exact .inl (if_pos same)
  · rw [if_neg same, if_pos (UInt32.lt_of_le_of_ne upTo same)]
    exact .inr rfl

end Search

/-! ### Newlines -/

theorem newline_eq_ofNat_iff {code : Nat} : newline = UInt8.ofNat code ↔ code % 256 = 10 := by
  rw [← UInt8.toNat_inj, UInt8.toNat_ofNat']
  exact eq_comm

/-- Only a newline has the byte of a newline: the bytes of longer characters start from 128. -/
theorem newline_mem_utf8EncodeChar_iff {character : Char} :
    newline ∈ String.utf8EncodeChar character ↔ character = '\n' := by
  constructor
  · intro member
    have code : character.val.toNat = 10 := by
      unfold String.utf8EncodeChar at member
      dsimp only at member
      repeat' split at member
      all_goals
        simp only [List.mem_cons, List.not_mem_nil, or_false, newline_eq_ofNat_iff] at member
        omega
    exact Char.ext (UInt32.toNat_inj.mp code)
  · rintro rfl
    decide

/-- A text has no more newlines than bytes. -/
theorem count_newline_le (text : List Char) : (bytes text).count newline ≤ byteLength text := by
  rw [← length_bytes]
  exact List.count_le_length

/-- Bytes that have no newline among them are passed over. -/
theorem lineStartsFrom_append (offset : Nat) {front : List UInt8} (none : newline ∉ front)
    (rest : List UInt8) :
    lineStartsFrom offset (front ++ rest) = lineStartsFrom (offset + front.length) rest := by
  induction front generalizing offset with
  | nil => rfl
  | cons byte front inductionHypothesis =>
    have different : byte ≠ newline := fun same => none (same ▸ List.mem_cons_self ..)
    have later : newline ∉ front := fun member => none (List.mem_cons_of_mem _ member)
    rw [List.cons_append, lineStartsFrom, if_neg different, inductionHypothesis _ later,
      List.length_cons, Nat.add_assoc, Nat.add_comm 1]

section Words

variable {offset : Nat} {contents : List UInt8}
  (fits : offset + contents.length < UInt32.size)

include fits

theorem lt_of_mem_lineStartsFrom :
    ∀ start ∈ lineStartsFrom offset contents, offset < start.toNat := by
  induction contents generalizing offset with
  | nil => exact fun _ member => by cases member
  | cons byte rest inductionHypothesis =>
    rw [List.length_cons] at fits
    have later : ∀ start ∈ lineStartsFrom (offset + 1) rest, offset < start.toNat :=
      fun start member => Nat.lt_of_succ_lt (inductionHypothesis (by omega) start member)
    unfold lineStartsFrom
    split
    · refine List.forall_mem_cons.mpr ⟨?_, later⟩
      rw [toNat_ofNatClamp (by omega)]
      exact Nat.lt_succ_self offset
    · exact later

theorem lineStartsFrom_ascending : (lineStartsFrom offset contents).Pairwise (· < ·) := by
  induction contents generalizing offset with
  | nil => exact .nil
  | cons byte rest inductionHypothesis =>
    rw [List.length_cons] at fits
    have ascending : (lineStartsFrom (offset + 1) rest).Pairwise (· < ·) :=
      inductionHypothesis (by omega)
    unfold lineStartsFrom
    split
    · refine List.pairwise_cons.mpr ⟨fun start member => ?_, ascending⟩
      rw [UInt32.lt_iff_toNat_lt, toNat_ofNatClamp (by omega)]
      exact lt_of_mem_lineStartsFrom (by omega) start member
    · exact ascending

/-- As many lines start behind the first byte and up to a limit as there are newlines in front of
the limit. -/
theorem countP_lineStartsFrom (limit : UInt32) :
    (lineStartsFrom offset contents).countP (· ≤ limit) =
      (contents.take (limit.toNat - offset)).count newline := by
  induction contents generalizing offset with
  | nil => rw [List.take_nil]; rfl
  | cons byte rest inductionHypothesis =>
    rw [List.length_cons] at fits
    have later : (lineStartsFrom (offset + 1) rest).countP (· ≤ limit) =
        (rest.take (limit.toNat - (offset + 1))).count newline := inductionHypothesis (by omega)
    have start : (UInt32.ofNatClamp (offset + 1)).toNat = offset + 1 := toNat_ofNatClamp (by omega)
    unfold lineStartsFrom
    by_cases reached : offset < limit.toNat
    · have one : limit.toNat - offset = limit.toNat - (offset + 1) + 1 := by omega
      rw [one, List.take_succ_cons]
      split
      next same =>
        rw [same, List.count_cons_self, List.countP_cons_of_pos, later]
        rw [decide_eq_true_iff, UInt32.le_iff_toNat_le, start]
        exact reached
      next different => rw [List.count_cons_of_ne different, later]
    · have short : limit.toNat - (offset + 1) = 0 := by omega
      have none : limit.toNat - offset = 0 := by omega
      rw [short] at later
      rw [none]
      split
      · rw [List.countP_cons_of_neg, later]
        · rfl
        · rw [decide_eq_true_iff, UInt32.le_iff_toNat_le, start]
          exact reached
      · exact later

end Words

/-! ### The lines of a text -/

/-- The lines of a text, without the newlines between them. -/
def lines (text : List Char) : List (List Char) := text.splitOn '\n'

theorem lines_cons (character : Char) (rest : List Char) :
    lines (character :: rest) =
      if character = '\n' then [] :: lines rest
      else (lines rest).modifyHead (character :: ·) := by
  unfold lines List.splitOn
  rw [List.splitOnP_cons_eq_if_modifyHead]
  simp only [beq_iff_eq]

/-- There is one more line than there are newlines. -/
theorem length_lines (text : List Char) :
    (lines text).length = (bytes text).count newline + 1 := by
  induction text with
  | nil => rfl
  | cons character rest inductionHypothesis =>
    rw [lines_cons, bytes_cons, List.count_append]
    split
    next same =>
      subst same
      rw [List.length_cons, inductionHypothesis, Nat.add_comm (List.count ..)]
      rfl
    next different =>
      have none : (String.utf8EncodeChar character).count newline = 0 :=
        List.count_eq_zero.mpr fun member => different (newline_mem_utf8EncodeChar_iff.mp member)
      rw [List.length_modifyHead, inductionHypothesis, none, Nat.zero_add]

/-- No line has a newline in it. -/
theorem newline_not_mem_of_mem_lines {text line : List Char} (member : line ∈ lines text) :
    '\n' ∉ line := by
  induction text generalizing line with
  | nil =>
    rw [List.mem_singleton.mp member]
    exact List.not_mem_nil
  | cons character rest inductionHypothesis =>
    rw [lines_cons] at member
    split at member
    next =>
      rcases List.mem_cons.mp member with rfl | later
      · exact List.not_mem_nil
      · exact inductionHypothesis later
    next different =>
      cases split : lines rest with
      | nil =>
        rw [split] at member
        cases member
      | cons first others =>
        rw [split, List.modifyHead_cons] at member
        rcases List.mem_cons.mp member with rfl | later
        · refine fun inside => ?_
          rcases List.mem_cons.mp inside with same | inside
          · exact different same.symm
          · exact inductionHypothesis (split ▸ List.mem_cons_self) inside
        · exact inductionHypothesis (split ▸ List.mem_cons_of_mem _ later)

theorem exists_lines_eq_cons (text : List Char) : ∃ line rest, lines text = line :: rest :=
  List.exists_cons_of_length_eq_add_one (length_lines text)

/-- Joined again, the lines are the text. -/
theorem joinLines_lines (text : List Char) : joinLines (lines text) = text := by
  induction text with
  | nil => rfl
  | cons character text inductionHypothesis =>
    obtain ⟨line, rest, same⟩ := exists_lines_eq_cons text
    rw [same] at inductionHypothesis
    rw [lines_cons, same]
    split
    next ends =>
      rw [ends]
      exact congrArg ('\n' :: ·) inductionHypothesis
    next =>
      rw [List.modifyHead_cons]
      cases rest <;> exact congrArg (character :: ·) inductionHypothesis

/-- Where lines start when they are joined and stand at an offset. -/
def startsOf (offset : Nat) : List (List Char) → List Nat
  | [] => []
  | line :: rest => offset :: startsOf (offset + byteLength line + 1) rest

theorem length_startsOf (offset : Nat) (pieces : List (List Char)) :
    (startsOf offset pieces).length = pieces.length := by
  induction pieces generalizing offset with
  | nil => rfl
  | cons piece pieces inductionHypothesis => exact congrArg (· + 1) (inductionHypothesis _)

/-- The table has the starts of the lines. -/
theorem map_lineStartsFrom {offset : Nat} {text : List Char}
    (fits : offset + byteLength text < UInt32.size) :
    offset :: (lineStartsFrom offset (bytes text)).map UInt32.toNat =
      startsOf offset (lines text) := by
  induction text generalizing offset with
  | nil => rfl
  | cons character text inductionHypothesis =>
    rw [byteLength_cons] at fits
    rw [lines_cons]
    split
    next ends =>
      subst ends
      have size : '\n'.utf8Size = 1 := rfl
      have later := inductionHypothesis (by omega : offset + 1 + byteLength text < UInt32.size)
      show offset :: (UInt32.ofNatClamp (offset + 1)).toNat ::
        (lineStartsFrom (offset + 1) (bytes text)).map UInt32.toNat = _
      rw [toNat_ofNatClamp (by omega), later]
      rfl
    next different =>
      have none : newline ∉ String.utf8EncodeChar character :=
        fun member => different (newline_mem_utf8EncodeChar_iff.mp member)
      obtain ⟨line, rest, same⟩ := exists_lines_eq_cons text
      have later := inductionHypothesis
        (by omega : offset + character.utf8Size + byteLength text < UInt32.size)
      rw [same] at later ⊢
      rw [bytes_cons, lineStartsFrom_append offset none, String.length_utf8EncodeChar,
        List.modifyHead_cons, startsOf, byteLength_cons, (List.cons.inj later).2, ← Nat.add_assoc]

/-- A line is a part of what is joined. It starts where it should, and behind it is the end or a
newline, behind which the next line starts. -/
theorem exists_joinLines_eq {pieces : List (List Char)} {index : Nat} {line : List Char}
    (offset : Nat) (found : pieces[index]? = some line) :
    ∃ front rest, joinLines pieces = front ++ line ++ rest ∧
      (front = [] ∨ front.getLast? = some '\n') ∧ (rest = [] ∨ rest.head? = some '\n') ∧
      (startsOf offset pieces)[index]? = some (offset + byteLength front) ∧
      (startsOf offset pieces)[index + 1]? =
        if rest = [] then none else some (offset + byteLength front + byteLength line + 1) := by
  induction pieces generalizing offset index with
  | nil => cases found
  | cons piece pieces inductionHypothesis =>
    cases index with
    | zero =>
      obtain rfl : piece = line := Option.some.inj found
      cases pieces with
      | nil => exact ⟨[], [], (List.append_nil _).symm, .inl rfl, .inl rfl, rfl, rfl⟩
      | cons next pieces =>
        exact ⟨[], '\n' :: joinLines (next :: pieces), rfl, .inl rfl, .inr rfl, rfl, rfl⟩
    | succ index =>
      obtain ⟨front, rest, joined, above, below, here, next⟩ :=
        inductionHypothesis (offset + byteLength piece + 1) found
      have size : byteLength (piece ++ '\n' :: front) =
          byteLength piece + 1 + byteLength front := by
        rw [byteLength_append, byteLength_cons, ← Nat.add_assoc]
        rfl
      refine ⟨piece ++ '\n' :: front, rest, ?_, .inr ?_, below, ?_, ?_⟩
      · cases pieces with
        | nil => cases found
        | cons other pieces =>
          show piece ++ '\n' :: joinLines (other :: pieces) = _
          rw [joined, List.append_assoc, List.append_assoc, List.append_assoc]
          rfl
      · rcases above with rfl | ends
        · rw [List.getLast?_append]
          rfl
        · rw [List.getLast?_append, List.getLast?_cons, ends]
          rfl
      · rw [startsOf, List.getElem?_cons_succ, here, size]
        exact congrArg some (by omega)
      · rw [startsOf, List.getElem?_cons_succ, next, size]
        split
        · rfl
        · exact congrArg some (by omega)

/-- The bytes of the characters of a string are the bytes that it is kept as. -/
theorem bytes_toList (source : String) : bytes source.toList = source.toByteArray.data.toList := by
  rw [← String.utf8Encode_toList, List.utf8Encode, List.toList_data_toByteArray]
  rfl

theorem byteLength_toList (source : String) :
    byteLength source.toList = source.utf8ByteSize := by
  rw [← length_bytes, bytes_toList]
  rfl

/-- How many of the bytes in front of an offset are newlines. -/
def newlinesBefore (source : String) (offset : UInt32) : Nat :=
  (source.toByteArray.data.toList.take offset.toNat).count newline

namespace LineTable

/-- Where a line ends: in front of the newline behind which the next one starts, or else at the end
of the text. -/
def lineStop (table : LineTable) (text : List Char) (line : UInt32) : Nat :=
  match table.lineStart? (line + 1) with
  | some next => next.toNat - 1
  | none => byteLength text

/-- The text of a line is a slice from where it starts to where it ends. -/
theorem lineText?_eq (table : LineTable) (text : List Char) (line : UInt32) :
    table.lineText? text line = (table.lineStart? line).bind fun start =>
      (slice? text start.toNat (max (table.lineStop text line) start.toNat)).map
        withoutReturn := by
  unfold lineText?
  cases table.lineStart? line <;> rfl

section Short

variable {text : List Char} (short : byteLength text < UInt32.size - 1)

include short

theorem starts_ascending : (ofText text).starts.Pairwise (· < ·) := by
  have fits : 0 + (bytes text).length < UInt32.size := by
    rw [length_bytes]
    omega
  refine List.pairwise_cons.mpr ⟨fun start member => ?_, lineStartsFrom_ascending fits⟩
  rw [UInt32.lt_iff_toNat_lt]
  exact lt_of_mem_lineStartsFrom fits start member

/-- As many lines start up to an offset as there are newlines in front of it, and one more. -/
theorem countP_starts (offset : UInt32) :
    (ofText text).starts.countP (· ≤ offset) =
      ((bytes text).take offset.toNat).count newline + 1 := by
  have fits : 0 + (bytes text).length < UInt32.size := by
    rw [length_bytes]
    omega
  show (0 :: lineStartsFrom 0 (bytes text)).countP (· ≤ offset) = _
  rw [List.countP_cons_of_pos (by simp), countP_lineStartsFrom fits, Nat.sub_zero]

/-- The line of an offset is one more than the newlines in front of it. -/
theorem toNat_lineOf (offset : UInt32) :
    ((ofText text).lineOf offset).toNat = ((bytes text).take offset.toNat).count newline + 1 := by
  have ascending : (ofText text).starts.Pairwise (· ≤ ·) :=
    (starts_ascending short).imp UInt32.le_of_lt
  have count := countP_starts short offset
  have few : ((bytes text).take offset.toNat).count newline ≤ byteLength text :=
    Nat.le_trans ((List.take_sublist ..).count_le _) (count_newline_le text)
  have some : 0 < (ofText text).starts.countP (· ≤ offset) := by omega
  unfold lineOf
  have number : (ordinal (((bytes text).take offset.toNat).count newline)).toNat =
      ((bytes text).take offset.toNat).count newline + 1 := toNat_ordinal (by omega)
  rcases search_eq_or ascending some with found | found
  · rw [found, count]
    exact number
  · rw [found, count]
    exact number

/-- Lines start up to an offset as far as to the line of the offset, and no other lines do. -/
theorem start_le_iff {offset : UInt32} {index : Nat}
    (inside : index < (ofText text).starts.length) :
    (ofText text).starts[index] ≤ offset ↔ index < ((ofText text).lineOf offset).toNat := by
  rw [getElem_le_iff_lt_countP ((starts_ascending short).imp UInt32.le_of_lt) inside,
    countP_starts short, toNat_lineOf short]

/-- The start of a line, by the index of the line. -/
theorem lineStart?_ofText {line : UInt32} (numbered : line ≠ 0) :
    ((ofText text).lineStart? line).map UInt32.toNat =
      (startsOf 0 (lines text))[line.toNat - 1]? := by
  have starts : 0 :: (lineStartsFrom 0 (bytes text)).map UInt32.toNat = startsOf 0 (lines text) :=
    map_lineStartsFrom (by omega)
  unfold lineStart?
  rw [if_neg numbered, ← List.getElem?_map, ← starts]
  rfl

/-- The start of the line after another one. Nothing comes after the largest number, but then the
text is too short for one more line. -/
theorem lineStart?_add_one {line : UInt32} :
    ((ofText text).lineStart? (line + 1)).map UInt32.toNat =
      (startsOf 0 (lines text))[line.toNat]? := by
  by_cases largest : line.toNat = UInt32.size - 1
  · have zero : line + 1 = 0 := by
      rw [← UInt32.toNat_inj, UInt32.toNat_add, largest]
      rfl
    have few := count_newline_le text
    rw [zero, List.getElem?_eq_none]
    · rfl
    · rw [length_startsOf, length_lines]
      omega
  · have next : (line + 1).toNat = line.toNat + 1 := by
      rw [UInt32.toNat_add]
      have word := line.toNat_lt_size
      exact Nat.mod_eq_of_lt (by omega : line.toNat + 1 < UInt32.size)
    have numbered : line + 1 ≠ 0 := fun zero => by
      rw [zero] at next
      cases next
    rw [lineStart?_ofText short numbered, next]
    rfl

/-- From where a line starts to where it ends, the text is the line. -/
theorem exists_slice_line {line : UInt32} {characters : List Char} (numbered : line ≠ 0)
    (found : (lines text)[line.toNat - 1]? = some characters) :
    ∃ start, (ofText text).lineStart? line = some start ∧
      start.toNat ≤ (ofText text).lineStop text line ∧
      slice? text start.toNat ((ofText text).lineStop text line) = some characters := by
  obtain ⟨front, rest, whole, -, -, here, next⟩ := exists_joinLines_eq 0 found
  have positive : 0 < line.toNat :=
    Nat.pos_of_ne_zero fun zero => numbered (UInt32.toNat_inj.mp zero)
  rw [joinLines_lines] at whole
  rw [Nat.sub_add_cancel positive, ← lineStart?_add_one short] at next
  rw [← lineStart?_ofText short numbered, Nat.zero_add] at here
  obtain ⟨start, known, begins⟩ := Option.map_eq_some_iff.mp here
  have stop : (ofText text).lineStop text line = byteLength front + byteLength characters := by
    unfold lineStop
    cases rest with
    | nil =>
      rw [Option.map_eq_none_iff.mp next, whole, List.append_nil, byteLength_append]
    | cons character rest =>
      obtain ⟨behind, known', ends⟩ := Option.map_eq_some_iff.mp next
      rw [known']
      dsimp only
      rw [ends, Nat.zero_add, Nat.add_sub_cancel]
  rw [stop, ← begins]
  exact ⟨start, known, Nat.le_add_right ..,
    slice?_eq_some_iff.mpr ⟨front, rest, whole, begins.symm, rfl⟩⟩

/-- The text that the table finds for a line. -/
theorem lineText?_ofText {line : UInt32} {characters : List Char} (numbered : line ≠ 0)
    (found : (lines text)[line.toNat - 1]? = some characters) :
    (ofText text).lineText? text line = some (withoutReturn characters) := by
  obtain ⟨start, known, inOrder, slice⟩ := exists_slice_line short numbered found
  rw [lineText?_eq, known, Option.bind_some, Nat.max_eq_left inOrder, slice]
  rfl

end Short

end LineTable

end Treewalk.Source
