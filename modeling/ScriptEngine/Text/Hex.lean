namespace ScriptEngine.Text

/-- Lower-case hexadecimal digits, most significant first. -/
def hexDigits (n : Nat) : String := String.ofList (Nat.toDigits 16 n)

/-- An address as text. -/
def hexAddress (n : Nat) : String := "0x" ++ hexDigits n

def hexByte (b : UInt8) : String :=
  String.ofList [Nat.digitChar (b.toNat / 16), Nat.digitChar (b.toNat % 16)]

def hexBytes (bytes : List UInt8) : String := String.join (bytes.map hexByte)

/-- The value of a hexadecimal digit of either case. -/
def digitValue (c : Char) : Nat := if c.isDigit then c.toNat - 48 else c.toLower.toNat - 87

/-- The number that digits stand for. -/
def ofHexDigits (digits : List Char) : Nat := digits.foldl (fun n c => 16 * n + digitValue c) 0

/-- The bytes that pairs of digits stand for. -/
def ofHexBytes : List Char → List UInt8
  | a :: b :: rest => UInt8.ofNat (ofHexDigits [a, b]) :: ofHexBytes rest
  | _ => []

end ScriptEngine.Text
