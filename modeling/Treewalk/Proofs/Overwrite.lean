/-
What it does to values that an object is written to.

Bringing a value up to date goes through it once and keeps a table of the objects it has dealt
with. In a value that agrees with a memory the table makes no difference: the result is the value
with every handle to the object replaced, wherever it stands (`Value.overwrite_eq_replaced`). And if
what is written does not reach the object itself, then the values that are brought up to date agree
with a memory again, the one that is brought up to date in the same way (`Value.Fits.replaced`).
-/
import Treewalk.Proofs.Memory

namespace Treewalk

open Std (HashMap)

/-! ### The objects in a value -/

/-- Whether a handle to an object stands somewhere in a value. -/
inductive Value.Reaches (object : Nat) : Value → Prop
  | here (latest : List Value) : Reaches object (.array object latest)
  | inside (other : Nat) {latest : List Value} {item : Value} (member : item ∈ latest)
    (reaches : Reaches object item) : Reaches object (.array other latest)

namespace Value

variable {memory : Memory} {object : Nat}

theorem Reaches.lt_size {value : Value} (reaches : value.Reaches object)
    (fits : value.Fits memory) : object < memory.size := by
  induction reaches with
  | here latest =>
    cases fits with
    | array known _ _ => exact known
  | inside other member _ inductionHypothesis =>
    cases fits with
    | array _ _ items => exact inductionHypothesis (items _ member)

/-- What an object holds is smaller than every value that reaches it. -/
theorem Reaches.sizeOf_lt {value : Value} (reaches : value.Reaches object)
    (fits : value.Fits memory) : sizeOf (memory.latest object) < sizeOf value := by
  induction reaches with
  | here latest =>
    cases fits with
    | array _ holds _ =>
      rw [holds, array.sizeOf_spec]
      omega
  | @inside other latest item member _ inductionHypothesis =>
    cases fits with
    | array _ _ items =>
      have smaller := inductionHypothesis (items item member)
      have smallest := List.sizeOf_lt_of_mem member
      rw [array.sizeOf_spec]
      omega

/-- No object is reached from what it holds. -/
theorem Fits.not_reaches {latest : List Value} (fits : (Value.array object latest).Fits memory)
    {item : Value} (member : item ∈ latest) : ¬ item.Reaches object := by
  intro reaches
  cases fits with
  | array _ holds items =>
    have smaller := reaches.sizeOf_lt (items item member)
    have smallest := List.sizeOf_lt_of_mem member
    rw [holds] at smaller
    omega

/-- What a value that reaches an object says that it holds. -/
theorem Reaches.fit {value : Value} (reaches : value.Reaches object) (fits : value.Fits memory) :
    (array object (memory.latest object)).Fits memory := by
  induction reaches with
  | here latest =>
    cases fits with
    | array known holds items =>
      subst holds
      exact .array known rfl items
  | inside other member _ inductionHypothesis =>
    cases fits with
    | array _ _ items => exact inductionHypothesis (items _ member)

theorem Reaches.trans {value : Value} {other : Nat} (first : value.Reaches other)
    (fits : value.Fits memory) {item : Value} (member : item ∈ memory.latest other)
    (second : item.Reaches object) : value.Reaches object := by
  induction first with
  | here latest =>
    cases fits with
    | array _ holds _ => exact .inside other (holds ▸ member) second
  | inside middle member' _ inductionHypothesis =>
    cases fits with
    | array _ _ items => exact .inside middle member' (inductionHypothesis (items _ member'))

/-! ### Replacing an object -/

mutual

/-- A value with every handle to an object replaced by one that shows other items. -/
def replaced (object : Nat) (now : List Value) : Value → Value
  | array other latest =>
    if other = object then array object now else array other (replacedAll object now latest)
  | value => value

/-- Some values with every handle to an object replaced by one that shows other items. -/
def replacedAll (object : Nat) (now : List Value) : List Value → List Value
  | [] => []
  | item :: rest => replaced object now item :: replacedAll object now rest

end

theorem replacedAll_eq_map (object : Nat) (now values : List Value) :
    replacedAll object now values = values.map (replaced object now) := by
  induction values with
  | nil => rfl
  | cons value rest inductionHypothesis =>
    rw [replacedAll, inductionHypothesis]
    rfl

theorem replaced_self (object : Nat) (now latest : List Value) :
    replaced object now (array object latest) = array object now := by
  rw [replaced, if_pos rfl]

theorem replaced_array {other : Nat} (different : other ≠ object) (now latest : List Value) :
    replaced object now (array other latest) =
      array other (latest.map (replaced object now)) := by
  rw [replaced, if_neg different, replacedAll_eq_map]

theorem replaced_of_not_reaches {value : Value} (apart : ¬ value.Reaches object)
    (now : List Value) : replaced object now value = value := by
  induction value using itemInduction with
  | array other latest inductionHypothesis =>
    have different : other ≠ object := by
      rintro rfl
      exact apart (.here latest)
    have same : latest.map (replaced object now) = latest.map id :=
      List.map_congr_left fun item member =>
        inductionHypothesis item member fun reaches => apart (.inside other member reaches)
    rw [replaced_array different, same, List.map_id]
  | number | string | function | void => rfl

/-- A handle that shows what its object holds need not be replaced. -/
theorem Fits.replaced_latest {value : Value} (fits : value.Fits memory) :
    value.replaced object (memory.latest object) = value := by
  induction fits with
  | @array other latest known holds _ inductionHypothesis =>
    by_cases same : other = object
    · subst same
      rw [replaced_self, holds]
    · have unchanged : latest.map (Value.replaced object (memory.latest object)) = latest.map id :=
        List.map_congr_left inductionHypothesis
      rw [replaced_array same, unchanged, List.map_id]
  | number | string | function | void => rfl

/-- Whether a table says of every object in it what it holds after one of them was written to. -/
structure Updates (memory : Memory) (object : Nat) (now : List Value)
    (table : HashMap Nat (List Value)) : Prop where
  written : table[object]? = some now
  others : ∀ other latest, other ≠ object → table[other]? = some latest →
    latest = (memory.latest other).map (replaced object now)

theorem Updates.insert {now : List Value} {table : HashMap Nat (List Value)}
    (updates : Updates memory object now table) {other : Nat} (different : other ≠ object) :
    Updates memory object now
      (table.insert other ((memory.latest other).map (replaced object now))) where
  written := by
    rw [HashMap.getElem?_insert, beq_false_of_ne different]
    exact updates.written
  others third latest third_ne found := by
    rw [HashMap.getElem?_insert] at found
    by_cases same : other = third
    · subst same
      rw [beq_self_eq_true] at found
      exact (Option.some.inj found).symm
    · rw [beq_false_of_ne same] at found
      exact updates.others third latest third_ne found

/-- Bringing a value up to date replaces the object that was written to. -/
theorem refresh_eq_replaced {now : List Value} {value : Value} (fits : value.Fits memory)
    {table : HashMap Nat (List Value)} (updates : Updates memory object now table) :
    (value.refresh table).1 = replaced object now value ∧
      Updates memory object now (value.refresh table).2 := by
  induction fits generalizing table with
  | @array other latest known holds _ inductionHypothesis =>
    have items : ∀ (values : List Value) (table : HashMap Nat (List Value)),
        (∀ item ∈ values, item ∈ latest) → Updates memory object now table →
        (refreshAll values table).1 = values.map (replaced object now) ∧
          Updates memory object now (refreshAll values table).2 := by
      intro values
      induction values with
      | nil => exact fun table _ updates => ⟨rfl, updates⟩
      | cons item rest restHypothesis =>
        intro table within updates
        have first := inductionHypothesis item (within item List.mem_cons_self) updates
        have later := restHypothesis (item.refresh table).2
          (fun other member => within other (List.mem_cons_of_mem item member)) first.2
        rw [refreshAll]
        refine ⟨?_, later.2⟩
        rw [List.map_cons, ← first.1, ← later.1]
    rw [refresh]
    by_cases same : other = object
    · subst same
      rw [updates.written]
      exact ⟨(replaced_self _ _ _).symm, updates⟩
    · rw [replaced_array same]
      cases found : table[other]? with
      | some latest' =>
        have latest_eq := updates.others other latest' same found
        rw [holds] at latest_eq
        exact ⟨congrArg (array other) latest_eq, updates⟩
      | none =>
        have refreshed := items latest table (fun _ member => member) updates
        refine ⟨congrArg (array other) refreshed.1, ?_⟩
        dsimp only
        have latest_eq : (refreshAll latest table).1 =
            (memory.latest other).map (replaced object now) := by rw [refreshed.1, holds]
        rw [latest_eq]
        exact refreshed.2.insert same
  | number | string | function | void => exact ⟨rfl, updates⟩

theorem overwrite_eq_replaced {value : Value} (fits : value.Fits memory) (object : Nat)
    (now : List Value) : value.overwrite object now = replaced object now value := by
  have updates : Updates memory object now (HashMap.emptyWithCapacity.insert object now) := by
    refine ⟨HashMap.getElem?_insert_self, fun other latest different found => ?_⟩
    rw [HashMap.getElem?_insert, beq_false_of_ne different.symm] at found
    simp at found
  exact (refresh_eq_replaced fits updates).1

end Value

/-! ### Memories that are written to -/

/-- The memory after an object was written to. -/
def Memory.write (memory : Memory) (object : Nat) (now : List Value) : Memory where
  latest other :=
    if other = object then now else (memory.latest other).map (Value.replaced object now)
  size := memory.size

namespace Value

variable {memory : Memory} {object : Nat} {now : List Value}

/-- A value that does not reach the object is as good as before. -/
theorem Fits.write {value : Value} (fits : value.Fits memory) (apart : ¬ value.Reaches object) :
    value.Fits (memory.write object now) := by
  induction fits with
  | @array other latest known holds items inductionHypothesis =>
    have different : other ≠ object := by
      rintro rfl
      exact apart (.here latest)
    have still : ∀ item ∈ latest, ¬ item.Reaches object := fun item member reaches =>
      apart (.inside other member reaches)
    have same : latest.map (Value.replaced object now) = latest.map id :=
      List.map_congr_left fun item member => replaced_of_not_reaches (still item member) now
    refine .array known ?_ fun item member => inductionHypothesis item member (still item member)
    show (if other = object then now else (memory.latest other).map _) = latest
    rw [if_neg different, holds, same, List.map_id]
  | number value => exact .number value
  | string value => exact .string value
  | function value => exact .function value
  | void => exact .void

/-- A value that is brought up to date agrees with the memory that is. -/
theorem Fits.replaced {value : Value} (fits : value.Fits memory) (fit : memory.Fit now)
    (apart : ∀ item ∈ now, ¬ item.Reaches object) :
    (value.replaced object now).Fits (memory.write object now) := by
  induction fits with
  | @array other latest known holds _ inductionHypothesis =>
    by_cases same : other = object
    · subst same
      rw [replaced_self]
      exact .array known (if_pos rfl) fun item member => (fit item member).write (apart item member)
    · rw [replaced_array same]
      refine .array known ?_ fun item member => ?_
      · show (if other = object then now else (memory.latest other).map _) = _
        rw [if_neg same, holds]
      · obtain ⟨old, inside, rfl⟩ := List.mem_map.mp member
        exact inductionHypothesis old inside
  | number value => exact .number value
  | string value => exact .string value
  | function value => exact .function value
  | void => exact .void

end Value

end Treewalk
