/-!
# Layout of short texts

Numbers, right-aligned columns, and the one-line form of a value with named fields:

* `decimal n`: the digits of a number, without padding;
* `hexWord value`: the eight hexadecimal digits of a word;
* `alignRight width fill text`: `text` at the right edge of a column;
* `namedFields name fields`: the constructor's name, then its fields in order within braces.
-/

namespace TimingEye

/-- The decimal digits of a number, most significant first, without leading zeros. -/
def decimal (n : Nat) : String :=
  String.ofList (Nat.toDigits 10 n)

/-- The text at the right edge of a column; a text wider than the column is kept whole. -/
def alignRight (width : Nat) (fill : Char) (text : String) : String :=
  String.ofList (text.toList.leftpad width fill)

def hexWord (value : UInt32) : String :=
  alignRight 8 '0' (String.ofList (Nat.toDigits 16 value.toNat))

def truthWord : Bool → String
  | true => "true"
  | false => "false"

def truthDigit : Bool → String
  | true => "1"
  | false => "0"

/-- A value on one line: its constructor, then every field with its value. -/
def namedFields (name : String) (fields : List (String × String)) : String :=
  name ++ " \x7b " ++ String.intercalate ", " (fields.map fun (key, value) => key ++ ": " ++ value)
    ++ " \x7d"

/-! ## Characters -/

@[simp] theorem toList_decimal (n : Nat) : (decimal n).toList = Nat.toDigits 10 n := by
  simp [decimal]

@[simp] theorem toList_alignRight (width : Nat) (fill : Char) (text : String) :
    (alignRight width fill text).toList = text.toList.leftpad width fill := by
  simp [alignRight]

end TimingEye
