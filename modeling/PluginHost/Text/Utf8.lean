/-!
# Bytes as text

`decode` reads bytes as UTF-8 and gives one entry for each character, and one empty entry for
each longest run of bytes that begins a character but does not complete one.  Bytes are text
exactly when no entry is empty (`ofBytes?`); where output has to be shown whatever it holds,
the empty entries become replacement characters (`ofBytesLossy`).
-/

namespace PluginHost.Text.Utf8

/-- What a first byte promises: the bits it gives, the number of bytes that follow, and the
range of the next one. -/
structure Lead where
  bits : Nat
  following : Nat
  low : Nat
  high : Nat

/-- The promise of a first byte, if a character can begin with it.  The ranges leave out
overlong forms, surrogates and numbers past the last character. -/
def lead? (byte : UInt8) : Option Lead :=
  let n := byte.toNat
  if n < 0x80 then some ⟨n, 0, 0, 0⟩
  else if n < 0xC2 then none
  else if n < 0xE0 then some ⟨n - 0xC0, 1, 0x80, 0xBF⟩
  else if n = 0xE0 then some ⟨0, 2, 0xA0, 0xBF⟩
  else if n = 0xED then some ⟨0xD, 2, 0x80, 0x9F⟩
  else if n < 0xF0 then some ⟨n - 0xE0, 2, 0x80, 0xBF⟩
  else if n = 0xF0 then some ⟨0, 3, 0x90, 0xBF⟩
  else if n < 0xF4 then some ⟨n - 0xF0, 3, 0x80, 0xBF⟩
  else if n = 0xF4 then some ⟨4, 3, 0x80, 0x8F⟩
  else none

/-- The character that the following bytes complete, and the bytes after the last one used. -/
def complete : Lead → List UInt8 → Option Char × List UInt8
  | ⟨bits, 0, _, _⟩, rest => (some (Char.ofNat bits), rest)
  | ⟨_, _ + 1, _, _⟩, [] => (none, [])
  | ⟨bits, following + 1, low, high⟩, byte :: rest =>
    if low ≤ byte.toNat ∧ byte.toNat ≤ high then
      complete ⟨bits * 64 + byte.toNat % 64, following, 0x80, 0xBF⟩ rest
    else (none, byte :: rest)

theorem length_complete_le (lead : Lead) (bytes : List UInt8) :
  (complete lead bytes).2.length ≤ bytes.length
  := by
  fun_induction complete lead bytes with
  | case1 => simp
  | case2 => simp
  | case3 _ _ _ _ _ _ _ ih => exact Nat.le_succ_of_le ih
  | case4 => simp

/-- The characters that the bytes spell, with an empty entry for each run that spells none. -/
def decode : List UInt8 → List (Option Char)
  | [] => []
  | byte :: rest =>
    match lead? byte with
    | none => none :: decode rest
    | some lead => (complete lead rest).1 :: decode (complete lead rest).2
termination_by bytes => bytes.length
decreasing_by
  · simp
  · exact Nat.lt_succ_of_le (length_complete_le lead rest)

/-- The text that the bytes spell, if they spell one. -/
def ofBytes? (bytes : List UInt8) : Option String :=
  ((decode bytes).mapM id).map String.ofList

/-- The text that the bytes spell, with a replacement character where they spell none. -/
def ofBytesLossy (bytes : List UInt8) : String :=
  String.ofList ((decode bytes).map fun c => c.getD '\ufffd')

/-- The UTF-8 bytes of a text. -/
def bytesOf (s : String) : List UInt8 := s.toUTF8.toList

end PluginHost.Text.Utf8
