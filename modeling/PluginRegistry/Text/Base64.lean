/-!
# Base 64

Every four characters of the alphabet spell three octets. Characters outside of the alphabet are
passed over, and the reader stops at the padding that completes a group of four.
-/

namespace PluginRegistry.Text

/-- Why a text is no base 64: one character is left over, after so many that were used, or the
padding is missing. -/
inductive Base64Fault where
  | leftOver (count : Nat)
  | padding
  deriving DecidableEq

/-- The six bits that a character stands for. -/
def sixBits? (c : Char) : Option Nat :=
  if 'A' ≤ c ∧ c ≤ 'Z' then some (c.toNat - 'A'.toNat)
  else if 'a' ≤ c ∧ c ≤ 'z' then some (c.toNat - 'a'.toNat + 26)
  else if '0' ≤ c ∧ c ≤ '9' then some (c.toNat - '0'.toNat + 52)
  else if c = '+' then some 62
  else if c = '/' then some 63
  else none

/-- The octets that the bits of a group spell, as far as they are whole. -/
def groupOctets (bits : List Nat) : List UInt8 :=
  let n := bits.foldl (fun n b => n * 64 + b) 0
  match bits.length with
  | 2 => [(n / 16).toUInt8]
  | 3 => [(n / 1024).toUInt8, (n / 4).toUInt8]
  | 4 => [(n / 65536).toUInt8, (n / 256).toUInt8, n.toUInt8]
  | _ => []

/-- The octets of the rest of a text, where the characters `group` and the padding signs `pads` wait
for the end of their group, and `done` octets came before. -/
def base64From (done : Nat) (group : List Nat) (pads : Nat) :
    List Char → Except Base64Fault (List UInt8)
  | [] =>
    if group.isEmpty then .ok []
    else if group.length = 1 then .error (.leftOver (done / 3 * 4 + 1))
    else .error .padding
  | c :: rest =>
    if c = '=' then
      if 2 ≤ group.length then
        if 4 ≤ group.length + pads + 1 then .ok (groupOctets group)
        else base64From done group (pads + 1) rest
      else base64From done group pads rest
    else
      match sixBits? c with
      | none => base64From done group pads rest
      | some bits =>
        let group := group ++ [bits]
        if group.length = 4 then do
          return groupOctets group ++ (← base64From (done + 3) [] 0 rest)
        else base64From done group 0 rest

/-- The octets that a text spells. -/
def decodeBase64 (cs : List Char) : Except Base64Fault (List UInt8) := base64From 0 [] 0 cs

end PluginRegistry.Text
