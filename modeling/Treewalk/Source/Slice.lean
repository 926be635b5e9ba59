/-
Slices of text by byte offsets. Text is a sequence of characters, and offsets count the bytes of
its UTF-8 form, so an offset may fall inside a character; no slice begins or ends there.

`slice?_eq_some_iff` is all there is to know about slices: a slice is a part of the text with the
right number of bytes in front of it and in it.
-/

namespace Treewalk.Source

/-- The bytes of a text. -/
def bytes (text : List Char) : List UInt8 :=
  text.flatMap String.utf8EncodeChar

/-- How many bytes the characters take up. -/
def byteLength : List Char → Nat
  | [] => 0
  | character :: rest => character.utf8Size + byteLength rest

/-- What follows the first `count` bytes, unless they end inside a character or past the end. -/
def dropBytes? : Nat → List Char → Option (List Char)
  | 0, text => some text
  | _ + 1, [] => none
  | count + 1, character :: rest =>
    if character.utf8Size ≤ count + 1 then dropBytes? (count + 1 - character.utf8Size) rest
    else none
termination_by structural _ text => text

/-- The first `count` bytes, unless they end inside a character or past the end. -/
def takeBytes? : Nat → List Char → Option (List Char)
  | 0, _ => some []
  | _ + 1, [] => none
  | count + 1, character :: rest =>
    if character.utf8Size ≤ count + 1 then
      (takeBytes? (count + 1 - character.utf8Size) rest).map (character :: ·)
    else none
termination_by structural _ text => text

/-- The text from byte `start` up to byte `stop`, if both are ends of characters in this order. -/
def slice? (text : List Char) (start stop : Nat) : Option (List Char) :=
  if start ≤ stop then (dropBytes? start text).bind (takeBytes? (stop - start)) else none

@[simp] theorem byteLength_nil : byteLength [] = 0 := rfl

@[simp] theorem byteLength_cons (character : Char) (rest : List Char) :
    byteLength (character :: rest) = character.utf8Size + byteLength rest := rfl

theorem byteLength_append (front rest : List Char) :
    byteLength (front ++ rest) = byteLength front + byteLength rest := by
  induction front with
  | nil => simp
  | cons character front inductionHypothesis =>
    rw [List.cons_append, byteLength_cons, byteLength_cons, inductionHypothesis, Nat.add_assoc]

@[simp] theorem bytes_nil : bytes [] = [] := rfl

@[simp] theorem bytes_cons (character : Char) (rest : List Char) :
    bytes (character :: rest) = String.utf8EncodeChar character ++ bytes rest := rfl

theorem length_bytes (text : List Char) : (bytes text).length = byteLength text := by
  induction text with
  | nil => rfl
  | cons character rest inductionHypothesis =>
    rw [bytes_cons, byteLength_cons, List.length_append, String.length_utf8EncodeChar,
      inductionHypothesis]

/-- Every character takes up at least one byte. -/
theorem byteLength_eq_zero_iff {text : List Char} : byteLength text = 0 ↔ text = [] := by
  cases text with
  | nil => simp
  | cons character rest =>
    have positive := character.utf8Size_pos
    simp only [byteLength_cons, reduceCtorEq, iff_false]
    omega

theorem dropBytes?_eq_some_iff {count : Nat} {text rest : List Char} :
    dropBytes? count text = some rest ↔
      ∃ front, text = front ++ rest ∧ byteLength front = count := by
  induction text generalizing count with
  | nil =>
    cases count with
    | zero => simp +contextual [dropBytes?, byteLength_eq_zero_iff, List.nil_eq]
    | succ count =>
      simp only [dropBytes?, List.nil_eq, List.append_eq_nil_iff, reduceCtorEq, false_iff]
      rintro ⟨_, ⟨rfl, -⟩, size⟩
      cases size
  | cons character text inductionHypothesis =>
    cases count with
    | zero => simp [dropBytes?, byteLength_eq_zero_iff]
    | succ count =>
      unfold dropBytes?
      constructor
      · intro found
        split at found
        · obtain ⟨front, rfl, size⟩ := inductionHypothesis.mp found
          exact ⟨character :: front, rfl, by rw [byteLength_cons]; omega⟩
        · cases found
      · rintro ⟨_ | ⟨first, front⟩, same, size⟩
        · cases size
        · obtain ⟨rfl, rfl⟩ := List.cons.inj same
          rw [byteLength_cons] at size
          rw [if_pos (by omega)]
          exact inductionHypothesis.mpr ⟨front, rfl, by omega⟩

theorem takeBytes?_eq_some_iff {count : Nat} {text front : List Char} :
    takeBytes? count text = some front ↔
      ∃ rest, text = front ++ rest ∧ byteLength front = count := by
  induction text generalizing count front with
  | nil =>
    cases count with
    | zero => simp +contextual [takeBytes?, byteLength_eq_zero_iff, List.nil_eq]
    | succ count =>
      simp only [takeBytes?, List.nil_eq, List.append_eq_nil_iff, reduceCtorEq, false_iff]
      rintro ⟨_, ⟨rfl, -⟩, size⟩
      cases size
  | cons character text inductionHypothesis =>
    cases count with
    | zero =>
      simp only [takeBytes?, Option.some.injEq, byteLength_eq_zero_iff]
      exact ⟨fun same => ⟨character :: text, by rw [← same]; rfl, same.symm⟩,
        fun ⟨_, _, same⟩ => same.symm⟩
    | succ count =>
      unfold takeBytes?
      constructor
      · intro found
        split at found
        · obtain ⟨front', found', rfl⟩ := Option.map_eq_some_iff.mp found
          obtain ⟨rest, rfl, size⟩ := inductionHypothesis.mp found'
          exact ⟨rest, rfl, by rw [byteLength_cons]; omega⟩
        · cases found
      · rintro ⟨rest, same, size⟩
        cases front with
        | nil => cases size
        | cons first front =>
          obtain ⟨rfl, rfl⟩ := List.cons.inj same
          rw [byteLength_cons] at size
          rw [if_pos (by omega), inductionHypothesis.mpr ⟨rest, rfl, by omega⟩]
          rfl

/-- A slice is a part of the text with `start` bytes in front of it that ends `stop` bytes into
the text. -/
theorem slice?_eq_some_iff {text middle : List Char} {start stop : Nat} :
    slice? text start stop = some middle ↔
      ∃ front rest, text = front ++ middle ++ rest ∧ byteLength front = start ∧
        start + byteLength middle = stop := by
  unfold slice?
  constructor
  · intro found
    split at found
    · obtain ⟨tail, dropped, taken⟩ := Option.bind_eq_some_iff.mp found
      obtain ⟨front, rfl, frontSize⟩ := dropBytes?_eq_some_iff.mp dropped
      obtain ⟨rest, rfl, middleSize⟩ := takeBytes?_eq_some_iff.mp taken
      exact ⟨front, rest, by rw [List.append_assoc], frontSize, by omega⟩
    · cases found
  · rintro ⟨front, rest, rfl, rfl, rfl⟩
    rw [if_pos (by omega), List.append_assoc,
      dropBytes?_eq_some_iff.mpr ⟨front, rfl, rfl⟩, Option.bind_some,
      takeBytes?_eq_some_iff.mpr ⟨rest, rfl, by omega⟩]

example : slice? "aβγ\nδ".toList 1 5 = some "βγ".toList := by decide

example : slice? "aβγ\nδ".toList 2 5 = none := by decide

end Treewalk.Source
