/-! # Sets of characters as boundaries

    A set of code points is given by the ascending list of the numbers at
    which membership changes: the first number is in, the second is the first
    that is out again, and so on. -/

namespace MessageHarvest.Text

/-- Whether a number is in the set with the given boundaries. -/
def within : List Nat → Nat → Bool
  | [], _ => false
  | [lo], n => lo ≤ n
  | lo :: hi :: bs, n => if n < lo then false else n < hi || within bs n

example : within [3, 5, 9] 4 = true := rfl

example : within [3, 5, 9] 5 = false := rfl

example : within [3, 5, 9] 100 = true := rfl

end MessageHarvest.Text
