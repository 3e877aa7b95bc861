import ConstraintSearch.Fault

/-!
# Builds and words

The library can be used in two builds.  The checked build tests its preconditions, and a sum or a
product that leaves the range of 64-bit words is a fault.  The unchecked build leaves out those
tests, and sums and products are taken modulo the number of words.
-/

namespace ConstraintSearch

/-- Whether preconditions and the range of words are tested. -/
inductive Build where
  | checked
  | unchecked
  deriving DecidableEq, Repr, Inhabited

/-- The number of words: two to the 64th. -/
def wordCount : Nat := 0x10000000000000000

namespace Build

/-- A number that came out of an operation on words, as a word. -/
@[inline]
def asWord (build : Build) (operation : Arithmetic) (n : Nat) : Except Fault Nat :=
  if n < wordCount then .ok n
  else match build with
    | .checked => .error (.overflow operation)
    | .unchecked => .ok (n % wordCount)

/-- The sum of two words. -/
@[inline]
def add (build : Build) (a b : Nat) : Except Fault Nat := build.asWord .add (a + b)

/-- The product of two words. -/
@[inline]
def multiply (build : Build) (a b : Nat) : Except Fault Nat := build.asWord .multiply (a * b)

/-- Within the range of words both builds agree with the natural numbers. -/
theorem asWord_of_lt (build : Build) (operation : Arithmetic) {n : Nat} (h : n < wordCount) :
    build.asWord operation n = .ok n := by
  simp [asWord, h]

theorem add_of_lt (build : Build) {a b : Nat} (h : a + b < wordCount) :
    build.add a b = .ok (a + b) :=
  build.asWord_of_lt .add h

end Build

/-! ## Room

A list of words can be built only if it can be addressed.  Lists that come near the limit find no
room either. -/

/-- Whether there is room for so many words: fewer than two to the 60th, less one. -/
def hasRoom (count : Nat) : Bool := count < 0xfffffffffffffff

/-- The number of bytes that a single list may take: two to the 63rd, less one. -/
def largestList : Nat := 0x7fffffffffffffff

end ConstraintSearch
