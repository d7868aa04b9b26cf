import MemoTransfer.Text.Utf8

/-!
# The bytes of characters

`Utf8.bytes` gives the bytes of a list of characters, which are those of the text that the list
makes up (`encode_ofList`). The bytes of two lists are joined (`bytes_append`). An ASCII character
is one byte and comes back from it; every other one consists of bytes from 128 on.
-/

namespace MemoTransfer.Utf8

/-- The UTF-8 bytes of characters. -/
def bytes (cs : List Char) : Bytes := cs.flatMap String.utf8EncodeChar

/-- The byte of an ASCII character. -/
def byteOf (c : Char) : UInt8 := UInt8.ofNat c.toNat

@[simp] theorem bytes_nil : bytes [] = [] := rfl

@[simp] theorem bytes_append (cs ds : List Char) : bytes (cs ++ ds) = bytes cs ++ bytes ds :=
  List.flatMap_append

theorem encode_ofList (cs : List Char) : encode (String.ofList cs) = bytes cs := by
  simp only [encode, String.toByteArray_ofList, List.utf8Encode, List.data_toByteArray]
  rfl

theorem encode_eq_bytes (s : String) : encode s = bytes s.toList := by
  rw [← encode_ofList, String.ofList_toList]

theorem bytes_injective {cs ds : List Char} (h : bytes cs = bytes ds) : cs = ds := by
  rw [← encode_ofList, ← encode_ofList] at h
  have same := decode?_encode (String.ofList cs)
  rw [h, decode?_encode] at same
  exact (String.ofList_injective (Option.some.inj same)).symm

/-! ## ASCII -/

theorem utf8EncodeChar_of_lt {c : Char} (h : c.toNat < 128) :
    String.utf8EncodeChar c = [byteOf c] := by
  have hc : c.val.toNat ≤ 127 := Nat.le_of_lt_succ h
  simp only [String.utf8EncodeChar, if_pos hc]
  rfl

theorem bytes_cons {c : Char} (h : c.toNat < 128) (cs : List Char) :
    bytes (c :: cs) = byteOf c :: bytes cs := by
  simp only [bytes, List.flatMap_cons, utf8EncodeChar_of_lt h, List.cons_append, List.nil_append]

theorem bytes_eq_map {cs : List Char} (h : ∀ c ∈ cs, c.toNat < 128) : bytes cs = cs.map byteOf := by
  induction cs with
  | nil => rfl
  | cons c cs ih =>
    rw [bytes_cons (h c List.mem_cons_self), ih fun d hd => h d (List.mem_cons_of_mem c hd),
      List.map_cons]

theorem toNat_byteOf {c : Char} (h : c.toNat < 128) : (byteOf c).toNat = c.toNat := by
  rw [byteOf, UInt8.toNat_ofNat', Nat.mod_eq_of_lt (by omega)]

theorem ofUInt8_byteOf {c : Char} (h : c.toNat < 128) : Char.ofUInt8 (byteOf c) = c := by
  apply Char.ext
  apply UInt32.toNat_inj.1
  show (byteOf c).toUInt32.toNat = c.toNat
  rw [UInt8.toNat_toUInt32, toNat_byteOf h]

/-- A byte is that of the character that it stands for. -/
theorem eq_byteOf {b : UInt8} {c : Char} (h : Char.ofUInt8 b = c) : b = byteOf c := by
  subst h
  have : (Char.ofUInt8 b).toNat = b.toNat := UInt8.toNat_toUInt32 b
  rw [byteOf, this, UInt8.ofNat_toNat]

theorem toNat_lt_of_isDigit {c : Char} (h : c.isDigit = true) : c.toNat < 128 := by
  simp only [Char.isDigit, Bool.and_eq_true, decide_eq_true_eq] at h
  have : c.toNat ≤ 57 := h.2
  omega

/-! ## Beyond ASCII -/

theorem le_of_mem_utf8EncodeChar {c : Char} (h : 128 ≤ c.toNat) {b : UInt8}
    (hb : b ∈ String.utf8EncodeChar c) : 128 ≤ b.toNat := by
  have hc : ¬c.val.toNat ≤ 127 := Nat.not_le.2 h
  simp only [String.utf8EncodeChar, if_neg hc] at hb
  split at hb
  · simp only [List.mem_cons, List.not_mem_nil, or_false] at hb
    rcases hb with rfl | rfl <;> (rw [UInt8.toNat_ofNat']; omega)
  · split at hb
    · simp only [List.mem_cons, List.not_mem_nil, or_false] at hb
      rcases hb with rfl | rfl | rfl <;> (rw [UInt8.toNat_ofNat']; omega)
    · simp only [List.mem_cons, List.not_mem_nil, or_false] at hb
      rcases hb with rfl | rfl | rfl | rfl <;> (rw [UInt8.toNat_ofNat']; omega)

end MemoTransfer.Utf8
