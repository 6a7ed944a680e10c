import TimingEye.Text.Layout
import TimingEye.Text.Unprinted

/-!
# Quoted octets

Octets that need not be text are quoted as far as they are text: a character that could be
mistaken is escaped, and an octet that belongs to no character is given in hexadecimal.
-/

namespace TimingEye

/-- A character within double quotation marks, where an apostrophe cannot be mistaken. -/
def quotedChar (c : Char) : String :=
  if c = '\x00' then "\\0"
  else if c = '\t' then "\\t"
  else if c = '\r' then "\\r"
  else if c = '\n' then "\\n"
  else if c = '"' ∨ c = '\\' then String.ofList ['\\', c]
  else if isUnprinted c then
    "\\u\x7b" ++ String.ofList (Nat.toDigits 16 c.toNat) ++ "\x7d"
  else String.singleton c

/-- An octet that belongs to no character, within quotation marks. -/
def quotedOctet (octet : UInt8) : String :=
  "\\x" ++ alignRight 2 '0' (String.ofList ((Nat.toDigits 16 octet.toNat).map Char.toUpper))

def quotedFrom (octets : ByteArray) (index : Nat) : String :=
  if h : index < octets.size then
    match octets.utf8DecodeChar? index with
    | some c => quotedChar c ++ quotedFrom octets (index + c.utf8Size)
    | none => quotedOctet octets[index] ++ quotedFrom octets (index + 1)
  else ""
termination_by octets.size - index
decreasing_by
  · have := c.utf8Size_pos
    omega
  · omega

def quoted (octets : ByteArray) : String :=
  "\"" ++ quotedFrom octets 0 ++ "\""

end TimingEye
