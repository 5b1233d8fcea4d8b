import PluginHost.Text.Printable

/-!
# Quoted characters

`quoted` shows one character between single quotes, as diagnostics about versions do.  The
quote and the backslash are escaped by a backslash, the common controls have letters, and any
other character that cannot stand alone is given by its code point in hexadecimal.
-/

namespace PluginHost.Text

/-- The hexadecimal digits of a number in small letters, without leading zeros. -/
def hexDigits (n : Nat) : String := String.ofList (Nat.toDigits 16 n)

/-- The character between single quotes, escaped where it has no plain form. -/
def quoted (c : Char) : String :=
  let inner :=
    if c = '\x00' then "\\0"
    else if c = '\t' then "\\t"
    else if c = '\r' then "\\r"
    else if c = '\n' then "\\n"
    else if c = '\'' then "\\'"
    else if c = '\\' then "\\\\"
    else if standsAlone c then String.singleton c
    else "\\u\x7b" ++ hexDigits c.toNat ++ "\x7d"
  "'" ++ inner ++ "'"

example : quoted 'ü' = "'ü'" := by decide +kernel

example : quoted '\u00a0' = "'\\u\x7ba0\x7d'" := by decide +kernel

end PluginHost.Text
