/-
This file proves that the numbers of a range of integers are those of an arithmetic progression, in
unbounded integers, and that there are as many of them as the exact quotient of distance and step,
rounded up.

A range follows its progression for as long as the progression goes on (`after_range`). What a word
of the machine adds is that the count may leave the words; the end is a word, so a count that has
left them has passed its end (`Progression.endsOutside_advanced`), and the range that has no current
number any more had none to give. A step of zero never gets anywhere. A range that has ended stays
as it is, be it one of integers or of floats.
-/
import Mathlib.Data.Rat.Floor
import Treewalk.Proofs.Derived

namespace Treewalk

/-! ### What a range gives, and when -/

namespace Range

/-- What is left of a range that has been asked for its next number so many times. -/
def after (range : Range) : Nat → Range
  | 0 => range
  | count + 1 => (range.after count).next.2

/-- What a range gives when it is asked once more than so many times. -/
def given? (range : Range) (index : Nat) : Option Number := (range.after index).next.1

theorem after_add (range : Range) (first count : Nat) :
    range.after (first + count) = (range.after first).after count := by
  induction count with
  | zero => rfl
  | succ count inductionHypothesis =>
    show (range.after (first + count)).next.2 = _
    rw [inductionHypothesis]
    rfl

/-- A range that has ended stays as it is. -/
theorem after_of_ended {range : Range} (ended : range.next.1 = none) (count : Nat) :
    range.after count = range := by
  induction count with
  | zero => rfl
  | succ count inductionHypothesis =>
    show (range.after count).next.2 = range
    rw [inductionHypothesis, snd_next_of_fst_eq_none ended]

theorem given?_of_ended {range : Range} (ended : range.next.1 = none) (count : Nat) :
    range.given? count = none := by
  rw [given?, after_of_ended ended, ended]

/-- A range of integers starts at its start, whatever the step. -/
theorem ofBounds_int {step : Option Value} (start stop : Int64) {stride : Int64}
    (known : step.getD (.int 1) = .int stride) :
    ofBounds (.int start) (.int stop) step = .ok (.int (some start) stop stride) := by
  simp only [ofBounds, known]

/-- How many steps it takes from the start to the end or beyond: the exact quotient of the distance
and the step, rounded up. It takes none if the end lies in the other direction. -/
def rounds (start stop step : Int) : Nat := ⌈((stop - start : Int) : ℚ) / (step : ℚ)⌉.toNat

end Range

/-! ### Where the progression is -/

namespace Progression

/-- The progression so many steps later. -/
def later (numbers : Progression) : Nat → Progression
  | 0 => numbers
  | count + 1 => (numbers.later count).advanced

theorem later_int (start : Int) (stop step : Int64) (count : Nat) :
    (int start stop step).later count = int (start + count * step.toInt) stop step := by
  induction count with
  | zero => simp [later]
  | succ count inductionHypothesis =>
    show ((int start stop step).later count).advanced = _
    rw [inductionHypothesis, advanced, Nat.cast_succ, add_mul, one_mul, add_assoc]

/-- A step that is not zero is before the end for exactly as many rounds as the quotient says. -/
theorem before_later_iff {step : Int64} (moves : step ≠ 0) (start : Int) (stop : Int64)
    (index : Nat) :
    ((int start stop step).later index).Before ↔
      index < Range.rounds start stop.toInt step.toInt := by
  have nonzero : step.toInt ≠ 0 := fun zero => moves (Int64.toInt_inj.mp zero)
  rw [later_int, Range.rounds, Int.lt_toNat, Int.lt_ceil, Before]
  split
  · rename_i upwards
    have positive : (0 : ℚ) < step.toInt := by exact_mod_cast lt_of_le_of_ne upwards nonzero.symm
    rw [lt_div_iff₀ positive]
    norm_cast
    omega
  · rename_i downwards
    have negative : (step.toInt : ℚ) < 0 := by exact_mod_cast not_le.mp downwards
    rw [lt_div_iff_of_neg negative]
    norm_cast
    omega

/-- A step of zero stays where it is. -/
theorem before_later_zero_iff (start : Int) (stop : Int64) (index : Nat) :
    ((int start stop 0).later index).Before ↔ start < stop.toInt := by
  rw [later_int]
  simp [Before]

/-- A current number is missing only behind the end. -/
theorem exists_number? {numbers : Progression} (ends : numbers.EndsOutside)
    (before : numbers.Before) : ∃ current, numbers.number? = some current :=
  Option.ne_none_iff_exists'.mp fun outside => ends outside before

/-- A range follows its progression until that has ended. The induction carries along that a number
which is no word lies behind the end. -/
theorem after_range {numbers : Progression} (ends : numbers.EndsOutside) {count : Nat}
    (before : ∀ index < count, (numbers.later index).Before) :
    numbers.range.after count = (numbers.later count).range ∧
      (numbers.later count).EndsOutside := by
  induction count with
  | zero => exact ⟨rfl, ends⟩
  | succ count inductionHypothesis =>
    obtain ⟨same, endsThere⟩ :=
      inductionHypothesis fun index small => before index (Nat.lt_succ_of_lt small)
    have still := before count (Nat.lt_succ_self count)
    obtain ⟨current, stands⟩ := exists_number? endsThere still
    refine ⟨?_, endsOutside_advanced still stands⟩
    show (numbers.range.after count).next.2 = (numbers.later count).advanced.range
    rw [same, next_range still stands]

/-- Before its end, a range gives the current number of its progression. -/
theorem given?_range_before {numbers : Progression} (ends : numbers.EndsOutside) (index : Nat)
    (before : ∀ earlier ≤ index, (numbers.later earlier).Before) :
    ∃ current, (numbers.later index).number? = some current ∧
      numbers.range.given? index = some current := by
  obtain ⟨same, endsThere⟩ := after_range ends fun earlier small => before earlier small.le
  have still := before index le_rfl
  obtain ⟨current, stands⟩ := exists_number? endsThere still
  refine ⟨current, stands, ?_⟩
  rw [Range.given?, same, next_range still stands]

/-- From its end on, a range gives nothing. -/
theorem given?_range_ended {numbers : Progression} (ends : numbers.EndsOutside) {count : Nat}
    (before : ∀ index < count, (numbers.later index).Before)
    (ended : ¬ (numbers.later count).Before) {index : Nat} (late : count ≤ index) :
    numbers.range.given? index = none := by
  obtain ⟨further, rfl⟩ := Nat.exists_eq_add_of_le late
  rw [Range.given?, Range.after_add, (after_range ends before).1]
  exact Range.given?_of_ended (fst_next_range ended) further

end Progression

/-! ### Ranges of integers -/

namespace Range

theorem range_int (start stop step : Int64) :
    (Progression.int start.toInt stop step).range = .int (some start) stop step := by
  rw [Progression.range, narrow?_toInt]

theorem endsOutside_int (start stop step : Int64) :
    (Progression.int start.toInt stop step).EndsOutside :=
  Progression.endsOutside_ofNumbers (.int start) (.int stop) (.int step)

/-- In each of its rounds, a range of integers gives the number that the progression has there. -/
theorem given?_int {start stop step : Int64} (moves : step ≠ 0) {index : Nat}
    (early : index < rounds start.toInt stop.toInt step.toInt) :
    ∃ word : Int64, word.toInt = start.toInt + index * step.toInt ∧
      (int (some start) stop step).given? index = some (.int word) := by
  obtain ⟨current, stands, given⟩ :=
    Progression.given?_range_before (endsOutside_int start stop step) index
      fun earlier small => (Progression.before_later_iff moves _ stop _).mpr (by omega)
  rw [Progression.later_int] at stands
  obtain ⟨word, fits, rfl⟩ := Option.map_eq_some_iff.mp stands
  rw [range_int] at given
  exact ⟨word, narrow?_eq_some_iff.mp fits, given⟩

/-- Behind its last round, a range of integers gives nothing. -/
theorem given?_int_of_rounds_le {start stop step : Int64} (moves : step ≠ 0) {index : Nat}
    (late : rounds start.toInt stop.toInt step.toInt ≤ index) :
    (int (some start) stop step).given? index = none := by
  rw [← range_int]
  exact Progression.given?_range_ended (endsOutside_int start stop step)
    (fun _ => (Progression.before_later_iff moves _ stop _).mpr)
    (fun before => lt_irrefl _ ((Progression.before_later_iff moves _ stop _).mp before)) late

/-- With a step of zero, a range gives its start again and again, or nothing at all. -/
theorem given?_int_zero (start stop : Int64) (index : Nat) :
    (int (some start) stop 0).given? index =
      if start.toInt < stop.toInt then some (.int start) else none := by
  rw [← range_int]
  split
  · rename_i ahead
    obtain ⟨current, stands, given⟩ :=
      Progression.given?_range_before (endsOutside_int start stop 0) index
        fun _ _ => (Progression.before_later_zero_iff _ stop _).mpr ahead
    have stays : (Progression.int start.toInt stop 0).later index = .int start.toInt stop 0 := by
      rw [Progression.later_int]
      simp
    rw [stays, Progression.number?, narrow?_toInt] at stands
    rw [given, ← stands]
    rfl
  · rename_i behind
    exact Progression.given?_range_ended (endsOutside_int start stop 0)
      (fun earlier (none : earlier < 0) => absurd none (Nat.not_lt_zero earlier))
      (fun before => behind ((Progression.before_later_zero_iff _ stop 0).mp before))
      (Nat.zero_le index)

/-- A range of integers is an exact arithmetic progression: it gives the start and all that follows
it in steps, in unbounded integers, as many times as the quotient of distance and step says, and
nothing afterwards. A step of zero repeats the start for good if it is below the end. Any range that
gives nothing once gives nothing any more, and stays as it is. -/
theorem integer_range_is_progression (start stop step : Int64) :
    (∃ range, ofBounds (.int start) (.int stop) (some (.int step)) = .ok range ∧
      (step ≠ 0 → ∀ index,
        (index < rounds start.toInt stop.toInt step.toInt →
          ∃ word : Int64, word.toInt = start.toInt + index * step.toInt ∧
            range.given? index = some (.int word)) ∧
        (rounds start.toInt stop.toInt step.toInt ≤ index → range.given? index = none)) ∧
      (step = 0 → ∀ index,
        range.given? index = if start.toInt < stop.toInt then some (.int start) else none)) ∧
    ∀ range : Range, range.next.1 = none →
      ∀ count, range.after count = range ∧ range.given? count = none := by
  refine ⟨⟨_, ofBounds_int start stop rfl, fun moves index => ?_, ?_⟩, fun range ended count => ?_⟩
  · exact ⟨given?_int moves, given?_int_of_rounds_le moves⟩
  · rintro rfl index
    exact given?_int_zero start stop index
  · exact ⟨after_of_ended ended count, given?_of_ended ended count⟩

/-- From the last integer but one, a step of five leaves the integers at once, and the range has
given its only number. -/
theorem range_ends_where_words_end :
    ∃ range, ofBounds (.int (Int64.maxValue - 1)) (.int Int64.maxValue) (some (.int 5)) =
        .ok range ∧
      range.given? 0 = some (.int (Int64.maxValue - 1)) ∧
      ∀ index, range.given? (index + 1) = none := by
  obtain ⟨⟨range, known, progression, -⟩, -⟩ :=
    integer_range_is_progression (Int64.maxValue - 1) Int64.maxValue 5
  have once : rounds (Int64.maxValue - 1).toInt Int64.maxValue.toInt (5 : Int64).toInt = 1 := by
    decide +kernel
  refine ⟨range, known, ?_, fun index => ?_⟩
  · obtain ⟨word, exact, given⟩ := (progression (by decide) 0).1 (by omega)
    have same : word = Int64.maxValue - 1 := Int64.toInt_inj.mp (exact.trans (by decide))
    rw [given, same]
  · exact (progression (by decide) (index + 1)).2 (by omega)

end Range

end Treewalk
