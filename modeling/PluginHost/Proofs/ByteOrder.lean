import PluginHost.Text.Utf8

/-!
# The order of texts by their bytes

Texts are ordered by the code points of their characters.  The UTF-8 bytes of a character with
a smaller code point come first and are no beginning of those of another
(`encode_append_lt`), so texts are ordered by their bytes in the same way (`bytesOf_lt_iff`).
-/

namespace PluginHost.Text.Utf8

theorem toList_loop (bs : ByteArray) (i : Nat) (front : List UInt8) :
  ByteArray.toList.loop bs i front = front.reverse ++ bs.data.toList.drop i
  := by
  fun_induction ByteArray.toList.loop bs i front with
  | case1 i front h ih =>
    have hlt : i < bs.data.toList.length := h
    rw [ih, List.drop_eq_getElem_cons hlt]
    simp [ByteArray.get!, getElem!_pos bs.data i h]
  | case2 i front h =>
    have hle : bs.data.toList.length ≤ i := Nat.le_of_not_lt h
    rw [List.drop_eq_nil_of_le hle, List.append_nil]

/-- The bytes of a text are those of its characters, in order. -/
theorem bytesOf_eq_flatMap (s : String) :
  bytesOf s = s.toList.flatMap String.utf8EncodeChar
  := by
  rw [bytesOf, ByteArray.toList, toList_loop, String.toUTF8_eq_toByteArray,
    ← String.utf8Encode_toList, List.utf8Encode]
  simp

/-- Lists of bytes are compared by their first bytes, and else by the rest. -/
theorem ofNat_cons_lt_iff {m n : Nat} (hm : m < 256) (hn : n < 256) (cs ds : List UInt8) :
  UInt8.ofNat m :: cs < UInt8.ofNat n :: ds ↔ m < n ∨ m = n ∧ cs < ds
  := by
  have heq : UInt8.ofNat m = UInt8.ofNat n ↔ m = n := by
    rw [← UInt8.toNat_inj, UInt8.toNat_ofNat_of_lt' hm, UInt8.toNat_ofNat_of_lt' hn]
  rw [List.cons_lt_cons_iff, UInt8.lt_iff_toNat_lt, UInt8.toNat_ofNat_of_lt' hm,
    UInt8.toNat_ofNat_of_lt' hn, heq]

/-- The bytes of a character with a smaller code point come first, whatever follows. -/
theorem encode_append_lt {c d : Char} (h : c < d) (cs ds : List UInt8) :
  String.utf8EncodeChar c ++ cs < String.utf8EncodeChar d ++ ds
  := by
  have hlt : c.val.toNat < d.val.toNat := h
  have hd : d.val.toNat < 0x110000 := by
    have hvalid := d.valid
    simp only [UInt32.isValidChar, Nat.isValidChar] at hvalid
    omega
  have hdigits : ∀ n : Nat, n / 4096 = n / 64 / 64 ∧ n / 262144 = n / 64 / 64 / 64 := by
    omega
  simp only [String.utf8EncodeChar, hdigits]
  -- one case for each pair of lengths; in each the first bytes that differ decide
  repeat' split
  all_goals
    simp (disch := omega) only [List.cons_append, List.nil_append, ofNat_cons_lt_iff]
    omega

theorem flatMap_encode_lt {cs ds : List Char} (h : cs < ds) :
  cs.flatMap String.utf8EncodeChar < ds.flatMap String.utf8EncodeChar
  := by
  induction h with
  | nil =>
    rename_i d ds
    rw [List.flatMap_nil, List.flatMap_cons]
    cases henc : String.utf8EncodeChar d with
    | nil => cases String.utf8EncodeChar_ne_nil henc
    | cons byte bytes => apply List.Lex.nil
  | rel hlt =>
    rw [List.flatMap_cons, List.flatMap_cons]
    apply encode_append_lt hlt
  | cons _ ih =>
    rw [List.flatMap_cons, List.flatMap_cons]
    apply List.append_left_lt ih

/-- The order of texts is the order of their bytes. -/
theorem bytesOf_lt_iff {s t : String} :
  bytesOf s < bytesOf t ↔ s < t
  := by
  rw [bytesOf_eq_flatMap, bytesOf_eq_flatMap]
  constructor
  · intro h
    rcases Std.lt_trichotomy s t with hlt | rfl | hgt
    · apply hlt
    · cases List.lt_irrefl _ h
    · cases List.lt_asymm h (flatMap_encode_lt hgt)
  · apply flatMap_encode_lt

end PluginHost.Text.Utf8
