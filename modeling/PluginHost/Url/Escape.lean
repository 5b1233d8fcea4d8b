import PluginHost.Text.Digits
import PluginHost.Text.Utf8

/-!
# Percent escapes

A URL writes a byte that may not stand for itself as a percent sign with two hexadecimal
digits.  Each part of a URL has its own set of ASCII characters that are escaped, and every
set contains the controls; characters that are not ASCII are escaped byte by byte.
-/

namespace PluginHost.Url

/-- The ASCII characters that are escaped everywhere. -/
def isControl (c : Char) : Bool := c.toNat < 0x20 || c.toNat == 0x7F

/-- What is escaped in a fragment. -/
def inFragmentSet (c : Char) : Bool := isControl c || " \"<>`".toList.contains c

/-- What is escaped in a path. -/
def inPathSet (c : Char) : Bool := inFragmentSet c || "#?\x7b\x7d".toList.contains c

/-- What is escaped in a user name and a password. -/
def inUserSet (c : Char) : Bool := inPathSet c || "/:;=@[\\]^|".toList.contains c

/-- What is escaped in a query; the schemes with a host of their own escape the quote too. -/
def inQuerySet (special : Bool) (c : Char) : Bool :=
  isControl c || " \"#<>".toList.contains c || (special && c == '\'')

/-- A byte as an escape. -/
def escapeByte (byte : UInt8) : List Char := '%' :: (Text.capitalHex 2 byte.toNat).toList

/-- A character, escaped if it is not ASCII or in the set. -/
def escapeChar (inSet : Char → Bool) (c : Char) : List Char :=
  if c.toNat < 0x80 && !inSet c then [c]
  else (Text.Utf8.bytesOf (String.singleton c)).flatMap escapeByte

/-- A text with the characters of the set escaped. -/
def escape (inSet : Char → Bool) (cs : List Char) : List Char := cs.flatMap (escapeChar inSet)

/-- The bytes of a text whose escapes are taken for the bytes that they name. -/
def unescape : List Char → List UInt8
  | '%' :: a :: b :: rest =>
    match Text.hexValue? a, Text.hexValue? b with
    | some high, some low => UInt8.ofNat (high * 16 + low) :: unescape rest
    | _, _ => 0x25 :: unescape (a :: b :: rest)
  | c :: rest => Text.Utf8.bytesOf (String.singleton c) ++ unescape rest
  | [] => []

end PluginHost.Url
