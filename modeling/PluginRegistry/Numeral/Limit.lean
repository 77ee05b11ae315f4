/-!
# Limits on whole numbers

A whole number in decimal digits is read and written up to a number of digits. What is said of a
longer one tells how many digits there were, where they are at hand.
-/

namespace PluginRegistry

/-- The most digits that a whole number is read from or written with. -/
def digitLimit : Nat := 4300

/-- What is said of a whole number with too many digits. -/
def digitComplaint (count : Option Nat) : String :=
  s!"Exceeds the limit ({digitLimit} digits) for integer string conversion" ++
    (match count with
      | some n => s!": value has {n} digits"
      | none => "") ++ "; use sys.set_int_max_str_digits() to increase the limit"

end PluginRegistry
