import PluginRegistry.Text.Quoted

/-!
# Octets as text

Decoding UTF-8. A sequence that is not well formed is refused with the octets that show it: the lead
octet that starts no character, or the lead octet with the continuation octets that were still in
order, when the next one is missing or is none.
-/

namespace PluginRegistry.Text

/-- What is wrong with a sequence of octets. -/
inductive Utf8Cause where
  | startOctet
  | continuation
  | endOfData
  deriving DecidableEq

/-- Where a sequence of octets stops being UTF-8: its cause, the position of the lead octet, how
many octets show it, and the lead octet. -/
structure Utf8Fault where
  cause : Utf8Cause
  position : Nat
  count : Nat
  octet : UInt8
  deriving DecidableEq

/-- The cause in words. -/
def Utf8Cause.message : Utf8Cause → String
  | .startOctet => "invalid start byte"
  | .continuation => "invalid continuation byte"
  | .endOfData => "unexpected end of data"

/-- The fault with another reason in place of its own. -/
def Utf8Fault.describe (reason : String) (f : Utf8Fault) : String :=
  "'utf-8' codec can't decode " ++
    (if f.count = 1 then
      "byte 0x" ++ String.ofList (hex 2 f.octet.toNat) ++ s!" in position {f.position}"
    else s!"bytes in position {f.position}-{f.position + f.count - 1}") ++ ": " ++ reason

/-- The fault in words. -/
def Utf8Fault.message (f : Utf8Fault) : String := f.describe f.cause.message

/-- A continuation octet. -/
def isContinuation (b : UInt8) : Bool := 0x80 ≤ b && b < 0xC0

/-- How many octets a character with this lead octet has; 0 for an octet that leads none. -/
def octetCount (lead : UInt8) : Nat :=
  if lead < 0x80 then 1
  else if lead < 0xC2 then 0
  else if lead < 0xE0 then 2
  else if lead < 0xF0 then 3
  else if lead < 0xF5 then 4
  else 0

/-- The octet may stand second after the lead octet: a continuation octet that neither spells a
character in too many octets nor leads out of the code points. -/
def maySecond (lead b : UInt8) : Bool :=
  isContinuation b &&
    (if lead = 0xE0 then 0xA0 ≤ b
     else if lead = 0xED then b < 0xA0
     else if lead = 0xF0 then 0x90 ≤ b
     else if lead = 0xF4 then b < 0x90
     else true)

/-- The continuation octets in order after the lead octet, at most `count` of them. -/
def inOrder (lead : UInt8) (count : Nat) (after : List UInt8) : List UInt8 :=
  match after.take count with
  | [] => []
  | second :: more => if maySecond lead second then second :: more.takeWhile isContinuation else []

/-- The code point that the octets of a character spell. -/
def codeOf (lead : UInt8) (rest : List UInt8) : Nat :=
  let payload := match rest.length with
    | 0 => lead.toNat
    | 1 => lead.toNat - 0xC0
    | 2 => lead.toNat - 0xE0
    | _ => lead.toNat - 0xF0
  rest.foldl (fun n b => n * 64 + (b.toNat - 0x80)) payload

/-- The characters that the octets spell, where `position` octets came before. The count of octets
still to be skipped belongs to a character already decoded. -/
def decodeFrom (position skip : Nat) : List UInt8 → Except Utf8Fault (List Char)
  | [] => .ok []
  | lead :: rest =>
    if 0 < skip then decodeFrom (position + 1) (skip - 1) rest
    else
      let count := octetCount lead
      let tail := inOrder lead (count - 1) rest
      if count = 0 then .error ⟨.startOctet, position, 1, lead⟩
      else if tail.length + 1 = count then do
        return Char.ofNat (codeOf lead tail) :: (← decodeFrom (position + 1) (count - 1) rest)
      else if tail.length = rest.length then
        .error ⟨.endOfData, position, tail.length + 1, lead⟩
      else .error ⟨.continuation, position, tail.length + 1, lead⟩

/-- The text that the octets spell. -/
def decodeUtf8 (octets : List UInt8) : Except Utf8Fault String := do
  return String.ofList (← decodeFrom 0 0 octets)

/-- The octets of a text. -/
def encodeUtf8 (text : String) : List UInt8 := text.toUTF8.toList

/-- How many octets a text has. -/
def octetLength (text : String) : Nat := text.utf8ByteSize

end PluginRegistry.Text
