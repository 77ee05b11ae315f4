import PluginRegistry.Text.Utf8
import PluginRegistry.Text.Units

/-!
# Percent encoding

A percent sign and two hexadecimal digits spell an octet. Octets that are no UTF-8 are decoded as
replacement characters, one for every run that could have started a character. In a query a plus
sign stands for a space.
-/

namespace PluginRegistry.Text

/-- The octets of a text, where a percent sign and two digits are one octet. -/
def percentOctets : List Char → List UInt8
  | '%' :: a :: b :: rest =>
    match hexValue? [a, b] with
    | some octet => octet.toUInt8 :: percentOctets rest
    | none => encodeUtf8 "%" ++ percentOctets (a :: b :: rest)
  | c :: rest => encodeUtf8 (String.singleton c) ++ percentOctets rest
  | [] => []

/-- The characters that octets spell, with a replacement character for what spells none; the count
of octets bounds the steps. -/
def decodeLossy : Nat → List UInt8 → List Char
  | 0, _ => []
  | _, [] => []
  | fuel + 1, octets =>
    match decodeFrom 0 0 octets with
    | .ok cs => cs
    | .error fault =>
      let before := match decodeFrom 0 0 (octets.take fault.position) with
        | .ok cs => cs
        | .error _ => []
      before ++ '\ufffd' :: decodeLossy fuel (octets.drop (fault.position + fault.count))

/-- The text that a percent-encoded text stands for. -/
def percentDecode (cs : List Char) : List Char :=
  let octets := percentOctets cs
  decodeLossy (octets.length + 1) octets

/-- The text that a part of a query stands for. -/
def queryDecode (cs : List Char) : List Char :=
  percentDecode (cs.map fun c => if c = '+' then ' ' else c)

/-- A character that is never percent-encoded. -/
def isUnreserved (c : Char) : Bool := c.isAlphanum || "_.-~".toList.contains c

/-- The text with its octets percent-encoded, but for unreserved characters and those that are
safe. -/
def percentEncode (safe cs : List Char) : List Char :=
  cs.flatMap fun c =>
    if isUnreserved c ∨ safe.contains c then [c]
    else
      (encodeUtf8 (String.singleton c)).flatMap fun octet =>
        '%' :: (hex 2 octet.toNat).map Char.toUpper

/-- The text as a part of a query, with a plus sign for a space. -/
def queryEncode (cs : List Char) : List Char :=
  (percentEncode [' '] cs).map fun c => if c = ' ' then '+' else c

end PluginRegistry.Text
