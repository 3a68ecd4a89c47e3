import Polyglot.Class.Source

/-!
Loops that count, and ranges of integers. A loop starts at a value and goes on as long as its test
holds; a range ends before its second bound. `CountingLoop.rangeValues_eq_iff` says for which loops
the two go through the same values.
-/

namespace Polyglot

/-- How a loop compares its variable with its bound. The first two count up, the others down. -/
inductive LoopTest where
  | below
  | upTo
  | above
  | downTo
  deriving DecidableEq, Repr

namespace LoopTest

def sign : LoopTest → String
  | below => "<"
  | upTo => "<="
  | above => ">"
  | downTo => ">="

/-- How the variable is changed after each turn, as it is written. -/
def change : LoopTest → String
  | below => "++"
  | upTo => "++"
  | above => "--"
  | downTo => "--"

def step : LoopTest → Int
  | below => 1
  | upTo => 1
  | above => -1
  | downTo => -1

def holds : LoopTest → (v bound : Int) → Bool
  | below, v, bound => decide (v < bound)
  | upTo, v, bound => decide (v ≤ bound)
  | above, v, bound => decide (v > bound)
  | downTo, v, bound => decide (v ≥ bound)

/-- How often the test holds from a value on. -/
def turns : LoopTest → (v bound : Int) → Nat
  | below, v, bound => (bound - v).toNat
  | upTo, v, bound => (bound - v + 1).toNat
  | above, v, bound => (v - bound).toNat
  | downTo, v, bound => (v - bound + 1).toNat

/-- Each turn leaves one turn less. -/
theorem turns_of_holds {test : LoopTest} {v bound : Int} (h : test.holds v bound = true) :
    test.turns v bound = test.turns (v + test.step) bound + 1 := by
  cases test <;> simp only [holds, decide_eq_true_eq] at h <;> simp only [turns, step] <;> omega

theorem turns_of_not_holds {test : LoopTest} {v bound : Int} (h : test.holds v bound = false) :
    test.turns v bound = 0 := by
  cases test <;> simp only [holds, decide_eq_false_iff_not] at h <;> simp only [turns] <;> omega

/-- The values from one on that a loop goes through. -/
def values (test : LoopTest) (bound v : Int) : List Int :=
  if h : test.holds v bound = true then
    have := turns_of_holds h
    v :: values test bound (v + test.step)
  else []
termination_by test.turns v bound

theorem values_eq (test : LoopTest) (bound v : Int) :
    test.values bound v = (List.range (test.turns v bound)).map fun k : Nat =>
      v + test.step * k := by
  fun_induction values with
  | case1 v holds fewer ih =>
    rw [fewer, List.range_succ_eq_map, List.map_cons, List.map_map, ih]
    simp only [Int.natCast_zero, Int.mul_zero, Int.add_zero, List.cons.injEq, true_and]
    refine List.map_congr_left fun k _ => ?_
    simp only [Function.comp_apply, Nat.succ_eq_add_one, Int.natCast_add, Int.natCast_one,
      Int.mul_add, Int.mul_one]
    omega
  | case2 v ends =>
    rw [turns_of_not_holds (Bool.eq_false_iff.mpr ends)]
    rfl

end LoopTest

/-- A loop over the values of a variable. -/
structure CountingLoop where
  var : String
  start : Int
  test : LoopTest
  bound : Int
  deriving DecidableEq, Repr

namespace CountingLoop

def header (x : CountingLoop) : String :=
  "for (let " ++ x.var ++ " = " ++ toString x.start ++ "; " ++ x.var ++ " " ++ x.test.sign ++ " " ++
    toString x.bound ++ "; " ++ x.var ++ x.test.change ++ ") \x7b"

/-- The values that the variable takes in the loop, one after another. -/
def values (x : CountingLoop) : List Int :=
  x.test.values x.bound x.start

/-- The integers of a range, which ends before its second bound. -/
def rangeValues (start stop : Int) : List Int :=
  (List.range (stop - start).toNat).map fun k : Nat => start + k

/-- The header of a loop that takes its values from a range. -/
def rangeHeader (var : String) (start stop : Int) : String :=
  "for " ++ var ++ " in range(" ++ toString start ++ ", " ++ toString stop ++ "):"

/-- A range has the values of a loop that counts up and stops before its bound. Of any other loop it
has the values only if there are none on both sides. -/
theorem rangeValues_eq_iff (x : CountingLoop) :
    rangeValues x.start x.bound = x.values ↔
      x.test = .below ∨ x.test = .upTo ∧ x.bound < x.start ∨ x.test = .above ∧
        x.start = x.bound := by
  obtain ⟨var, start, test, bound⟩ := x
  have lengths (h : rangeValues start bound = test.values bound start) :
      (bound - start).toNat = test.turns start bound := by
    simpa [rangeValues, LoopTest.values_eq] using congrArg List.length h
  have none (left : (bound - start).toNat = 0) (right : test.turns start bound = 0) :
      rangeValues start bound = test.values bound start := by
    rw [rangeValues, LoopTest.values_eq, left, right]
    rfl
  change rangeValues start bound = test.values bound start ↔ _
  cases test with
  | below => simp [rangeValues, LoopTest.values_eq, LoopTest.turns, LoopTest.step]
  | upTo =>
    simp only [reduceCtorEq, false_or, true_and, false_and, or_false]
    simp only [LoopTest.turns] at lengths none
    exact ⟨fun h => by have := lengths h; omega, fun h => none (by omega) (by omega)⟩
  | above =>
    simp only [reduceCtorEq, false_or, true_and, false_and]
    simp only [LoopTest.turns] at lengths none
    exact ⟨fun h => by have := lengths h; omega, fun h => none (by omega) (by omega)⟩
  | downTo =>
    simp only [reduceCtorEq, false_or, false_and, iff_false]
    intro h
    have := lengths h
    simp only [LoopTest.turns] at this
    omega

end CountingLoop

end Polyglot
