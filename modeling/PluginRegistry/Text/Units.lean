import PluginRegistry.Text.Half

/-!
# Escaped UTF-16 units

An escape of four hexadecimal digits names a UTF-16 unit. Two of them may spell one character.
-/

namespace PluginRegistry.Text

/-- The value of a hexadecimal digit. -/
def hexDigit? (c : Char) : Option Nat :=
  if '0' ≤ c ∧ c ≤ '9' then some (c.toNat - '0'.toNat)
  else if 'a' ≤ c ∧ c ≤ 'f' then some (c.toNat - 'a'.toNat + 10)
  else if 'A' ≤ c ∧ c ≤ 'F' then some (c.toNat - 'A'.toNat + 10)
  else none

/-- The number that hexadecimal digits spell, if all of them are. -/
def hexValue? (cs : List Char) : Option Nat :=
  cs.foldl (fun total c => do return 16 * (← total) + (← hexDigit? c)) (some 0)

/-- Units as characters: a high surrogate and the low one after it are one character, and a
surrogate that is alone is kept as a half. -/
def joinUnits : List Nat → List Char
  | high :: low :: rest =>
    if 0xD800 ≤ high ∧ high < 0xDC00 ∧ 0xDC00 ≤ low ∧ low < 0xE000 then
      Char.ofNat (0x10000 + (high - 0xD800) * 0x400 + (low - 0xDC00)) :: joinUnits rest
    else
      (if isHalfUnit high then ofHalf high else Char.ofNat high) ::
        joinUnits (low :: rest)
  | [n] => [if isHalfUnit n then ofHalf n else Char.ofNat n]
  | [] => []

end PluginRegistry.Text
