import MemoTransfer.Proofs.Json.Reads

/-!
# Strings

What stands between the quotes of a string may be any bytes but controls, with escapes
(`IsBody`). `Denotes` says which characters it stands for, if it stands for characters at all: a
short escape for its character, four hexadecimal digits for a character or half of one, and all
other bytes for themselves. Those characters are what is read (`stringBytes_denotes`), and the
written characters of a string stand for it (`denotes_escapes`), whatever they are.
-/

namespace MemoTransfer.Json

open MemoTransfer.Utf8

/-! ## What a string may hold -/

/-- A byte that stands for itself between quotes. -/
def IsPlain (b : UInt8) : Prop := Char.ofUInt8 b ≠ '"' ∧ Char.ofUInt8 b ≠ '\\' ∧ ¬b < 0x20

/-- Four hexadecimal digits and their value. -/
inductive SpellsUnit : Bytes → Nat → Prop
  | mk {a b c d : UInt8} {w x y z : Nat} (ha : hexDigit? a = some w) (hb : hexDigit? b = some x)
    (hc : hexDigit? c = some y) (hd : hexDigit? d = some z) :
    SpellsUnit [a, b, c, d] (((w * 16 + x) * 16 + y) * 16 + z)

/-- What may stand between the quotes of a string, whether or not it stands for characters. -/
inductive IsBody : Bytes → Prop
  | nil : IsBody []
  | plain {b : UInt8} {bs : Bytes} (h : IsPlain b) (further : IsBody bs) : IsBody (b :: bs)
  | short {e : UInt8} {bs : Bytes} (h : (shortEscape? e).isSome) (further : IsBody bs) :
    IsBody (byteOf '\\' :: e :: bs)
  | unit {us bs : Bytes} {n : Nat} (h : SpellsUnit us n) (further : IsBody bs) :
    IsBody (byteOf '\\' :: byteOf 'u' :: (us ++ bs))

/-- What stands between the quotes of a string stands for the characters. -/
inductive Denotes : Bytes → List Char → Prop
  | nil : Denotes [] []
  | plain {c : Char} {cs : List Char} {bs : Bytes} (hq : c ≠ '"') (hs : c ≠ '\\')
    (hc : ¬c.toNat < 0x20) (further : Denotes bs cs) :
    Denotes (String.utf8EncodeChar c ++ bs) (c :: cs)
  | short {e : UInt8} {c : Char} {cs : List Char} {bs : Bytes} (h : shortEscape? e = some c)
    (further : Denotes bs cs) : Denotes (byteOf '\\' :: e :: bs) (c :: cs)
  | unit {us bs : Bytes} {n : Nat} {cs : List Char} (h : SpellsUnit us n)
    (hn : n < 0xD800 ∨ 0xDFFF < n) (further : Denotes bs cs) :
    Denotes (byteOf '\\' :: byteOf 'u' :: (us ++ bs)) (Char.ofNat n :: cs)
  /-- A character beyond the first 65536, as two halves. -/
  | pair {us vs bs : Bytes} {high low : Nat} {cs : List Char} (h : SpellsUnit us high)
    (h' : SpellsUnit vs low) (hh : 0xD800 ≤ high ∧ high ≤ 0xDBFF)
    (hl : 0xDC00 ≤ low ∧ low ≤ 0xDFFF) (further : Denotes bs cs) :
    Denotes (byteOf '\\' :: byteOf 'u' :: (us ++ byteOf '\\' :: byteOf 'u' :: (vs ++ bs)))
      (Char.ofNat (0x10000 + (high - 0xD800) * 0x400 + (low - 0xDC00)) :: cs)

theorem isPlain_of_mem_utf8EncodeChar {c : Char} (hq : c ≠ '"') (hs : c ≠ '\\')
    (hc : ¬c.toNat < 0x20) {b : UInt8} (hb : b ∈ String.utf8EncodeChar c) : IsPlain b := by
  by_cases h : c.toNat < 128
  · rw [utf8EncodeChar_of_lt h, List.mem_singleton] at hb
    subst hb
    refine ⟨by rwa [ofUInt8_byteOf h], by rwa [ofUInt8_byteOf h], ?_⟩
    rw [UInt8.lt_iff_toNat_lt, toNat_byteOf h]
    exact hc
  · have hle := le_of_mem_utf8EncodeChar (Nat.le_of_not_lt h) hb
    have ne : ∀ d : Char, d.toNat < 128 → Char.ofUInt8 b ≠ d := by
      rintro d hd rfl
      have : (Char.ofUInt8 b).toNat = b.toNat := UInt8.toNat_toUInt32 b
      omega
    refine ⟨ne '"' (by decide), ne '\\' (by decide), ?_⟩
    rw [UInt8.lt_iff_toNat_lt]
    have : (0x20 : UInt8).toNat = 32 := rfl
    omega

theorem SpellsUnit.hexUnit {us : Bytes} {n : Nat} (h : SpellsUnit us n) (rest : Bytes) :
    hexUnit (us ++ rest) = .ok (n, rest) := by
  obtain ⟨ha, hb, hc, hd⟩ := h
  simp only [List.cons_append, List.nil_append, Json.hexUnit, ha, hb, hc, hd]

/-- A hexadecimal digit is no quote and no backslash. -/
theorem SpellsUnit.ne_quote {us : Bytes} {n : Nat} (h : SpellsUnit us n) :
    ∀ b ∈ us, Char.ofUInt8 b ≠ '"' ∧ Char.ofUInt8 b ≠ '\\' := by
  have digit {b : UInt8} {k : Nat} (hb : hexDigit? b = some k) :
      Char.ofUInt8 b ≠ '"' ∧ Char.ofUInt8 b ≠ '\\' := by
    refine ⟨fun e => ?_, fun e => ?_⟩ <;>
    · rw [eq_byteOf e] at hb
      cases hb
  obtain ⟨ha, hb, hc, hd⟩ := h
  simp only [List.forall_mem_cons]
  exact ⟨digit ha, digit hb, digit hc, digit hd, nofun⟩

theorem SpellsUnit.length {us : Bytes} {n : Nat} (h : SpellsUnit us n) : us.length = 4 := by
  cases h
  rfl

theorem Denotes.isBody {bs : Bytes} {cs : List Char} (h : Denotes bs cs) : IsBody bs := by
  have plains (us bs : Bytes) (hus : ∀ b ∈ us, IsPlain b) (h : IsBody bs) : IsBody (us ++ bs) := by
    induction us with
    | nil => exact h
    | cons b us ih =>
      exact .plain (hus b List.mem_cons_self) (ih fun b' hb => hus b' (List.mem_cons_of_mem b hb))
  induction h with
  | nil => exact .nil
  | plain hq hs hc _ ih => exact plains _ _ (fun b => isPlain_of_mem_utf8EncodeChar hq hs hc) ih
  | short h _ ih => exact .short (by rw [h]; rfl) ih
  | unit h _ _ ih => exact .unit h ih
  | pair h h' _ _ _ ih => exact .unit h (.unit h' ih)

/-! ## Written strings -/

theorem hexDigit?_digitChar {k : Nat} (h : k < 16) :
    hexDigit? (byteOf (Nat.digitChar k)) = some k := by
  revert k
  decide

theorem toNat_digitChar_lt (k : Nat) : (Nat.digitChar k).toNat < 128 := by
  by_cases h : k < 16
  · revert k
    decide
  · rw [Nat.digitChar_eq_star.2 (Nat.le_of_not_lt h)]
    decide

/-- A character inside a string has a short escape, or is a control, or stands for itself. -/
theorem escapeChar_cases (c : Char) :
    c ∈ ['"', '\\', '\x08', '\x0c', '\n', '\r', '\t'] ∨
      c.toNat < 0x20 ∧ escapeChar c =
        ['\\', 'u', '0', '0', Nat.digitChar (c.toNat / 16), Nat.digitChar (c.toNat % 16)] ∨
      c ≠ '"' ∧ c ≠ '\\' ∧ ¬c.toNat < 0x20 ∧ escapeChar c = [c] := by
  by_cases hm : c ∈ ['"', '\\', '\x08', '\x0c', '\n', '\r', '\t']
  · exact .inl hm
  · simp only [List.mem_cons, List.not_mem_nil, or_false, not_or] at hm
    obtain ⟨hq, hs, hb, hf, hn, hr, ht⟩ := hm
    by_cases hc : c.toNat < 0x20
    · refine .inr (.inl ⟨hc, ?_⟩)
      rw [escapeChar, if_pos hc] <;> assumption
    · refine .inr (.inr ⟨hq, hs, hc, ?_⟩)
      rw [escapeChar, if_neg hc] <;> assumption

/-- **The written characters of a string stand for it.** -/
theorem denotes_escapes (cs : List Char) : Denotes (bytes (cs.flatMap escapeChar)) cs := by
  induction cs with
  | nil => exact .nil
  | cons c cs ih =>
    rw [List.flatMap_cons, bytes_append]
    rcases escapeChar_cases c with hm | ⟨hc, e⟩ | ⟨hq, hs, hc, e⟩
    · fin_cases hm <;> exact .short (by decide) ih
    · have zero : hexDigit? (byteOf '0') = some 0 := by decide
      have unit := SpellsUnit.mk zero zero (hexDigit?_digitChar (show c.toNat / 16 < 16 by omega))
        (hexDigit?_digitChar (show c.toNat % 16 < 16 by omega))
      rw [show ((0 * 16 + 0) * 16 + c.toNat / 16) * 16 + c.toNat % 16 = c.toNat by omega] at unit
      have denoted := Denotes.unit unit (by omega) ih
      rw [Char.ofNat_toNat] at denoted
      rw [e, bytes_eq_map (by simp [toNat_digitChar_lt])]
      exact denoted
    · rw [e, bytes, List.flatMap_singleton]
      exact .plain hq hs hc ih

/-! ## Escapes -/

theorem escaped_short {e : UInt8} {c : Char} (h : shortEscape? e = some c) (rest : Bytes) :
    escaped (e :: rest) = .ok (c, rest) := by
  have hu : Char.ofUInt8 e ≠ 'u' := by
    intro hu
    rw [eq_byteOf hu] at h
    cases h
  rw [escaped, if_neg hu, h]

theorem escaped_unit {us : Bytes} {n : Nat} (h : SpellsUnit us n) (hn : n < 0xD800 ∨ 0xDFFF < n)
    (rest : Bytes) : escaped (byteOf 'u' :: (us ++ rest)) = .ok (Char.ofNat n, rest) := by
  rw [escaped, if_pos (by decide), h.hexUnit]
  show (if 0xDC00 ≤ n ∧ n ≤ 0xDFFF then _ else if 0xD800 ≤ n ∧ n ≤ 0xDBFF then _ else _) = _
  rw [if_neg (by omega), if_neg (by omega)]
  rfl

theorem escaped_pair {us vs : Bytes} {high low : Nat} (h : SpellsUnit us high)
    (h' : SpellsUnit vs low) (hh : 0xD800 ≤ high ∧ high ≤ 0xDBFF)
    (hl : 0xDC00 ≤ low ∧ low ≤ 0xDFFF) (rest : Bytes) :
    escaped (byteOf 'u' :: (us ++ byteOf '\\' :: byteOf 'u' :: (vs ++ rest))) =
      .ok (Char.ofNat (0x10000 + (high - 0xD800) * 0x400 + (low - 0xDC00)), rest) := by
  have half : lowHalf (byteOf '\\' :: byteOf 'u' :: (vs ++ rest)) = .ok (low, rest) := by
    rw [lowHalf, if_neg (by decide)]
    dsimp only
    rw [if_neg (by decide), h'.hexUnit]
    exact if_pos hl
  rw [escaped, if_pos (by decide), h.hexUnit]
  show (if 0xDC00 ≤ high ∧ high ≤ 0xDFFF then _ else
    if 0xD800 ≤ high ∧ high ≤ 0xDBFF then _ else _) = _
  rw [if_neg (by omega), if_pos hh, half]
  rfl

/-! ## Bytes of a string -/

theorem stringBytes_plain {bs : Bytes} (h : ∀ b ∈ bs, IsPlain b) (n : Nat) (taken rest : Bytes) :
    stringBytes (bs.length + n) taken (bs ++ rest) =
      stringBytes n (bs.reverse ++ taken) rest := by
  induction bs generalizing taken with
  | nil => rw [List.length_nil, Nat.zero_add, List.nil_append, List.reverse_nil, List.nil_append]
  | cons b bs ih =>
    obtain ⟨hq, hs, hc⟩ := h b List.mem_cons_self
    rw [List.length_cons, Nat.add_right_comm, List.cons_append, stringBytes, if_neg hq, if_neg hs,
      if_neg hc, ih fun b hb => h b (List.mem_cons_of_mem _ hb)]
    simp

theorem stringBytes_escaped {c : Char} {bs rest : Bytes} (h : escaped bs = .ok (c, rest)) (n : Nat)
    (taken : Bytes) :
    stringBytes (n + 1) taken (byteOf '\\' :: bs) =
      stringBytes n ((String.utf8EncodeChar c).reverse ++ taken) rest := by
  have hc : Utf8.encode (String.singleton c) = String.utf8EncodeChar c := by
    rw [String.singleton_eq_ofList, encode_ofList, bytes, List.flatMap_singleton]
  rw [stringBytes, if_neg (by decide), if_pos (by decide), h]
  simp only [hc]

theorem stringBytes_quote (n : Nat) (taken rest : Bytes) :
    stringBytes (n + 1) taken (byteOf '"' :: rest) = .ok (taken.reverse, rest) := by
  rw [stringBytes, if_pos (by decide)]

/-- **The characters that a string stands for are read.** -/
theorem stringBytes_denotes {bs : Bytes} {cs : List Char} (h : Denotes bs cs) {n : Nat}
    (hn : bs.length < n) (taken rest : Bytes) :
    stringBytes n taken (bs ++ byteOf '"' :: rest) = .ok (taken.reverse ++ bytes cs, rest) := by
  have bytes_cons' (c : Char) (cs : List Char) :
      bytes (c :: cs) = String.utf8EncodeChar c ++ bytes cs := rfl
  induction h generalizing n taken with
  | nil =>
    obtain ⟨n, rfl⟩ : ∃ m, n = m + 1 := ⟨n - 1, by omega⟩
    rw [bytes_nil, List.nil_append, stringBytes_quote, List.append_nil]
  | @plain c cs bs hq hs hc _ ih =>
    rw [List.length_append] at hn
    obtain ⟨n, rfl⟩ : ∃ m, n = (String.utf8EncodeChar c).length + m :=
      ⟨n - (String.utf8EncodeChar c).length, by omega⟩
    rw [List.append_assoc, stringBytes_plain fun b => isPlain_of_mem_utf8EncodeChar hq hs hc,
      ih (by omega)]
    simp [bytes_cons']
  | short h _ ih =>
    simp only [List.length_cons] at hn
    obtain ⟨n, rfl⟩ : ∃ m, n = m + 1 := ⟨n - 1, by omega⟩
    rw [List.cons_append, List.cons_append, stringBytes_escaped (escaped_short h _), ih (by omega)]
    simp [bytes_cons']
  | unit h hn' _ ih =>
    simp only [List.length_cons, List.length_append] at hn
    obtain ⟨n, rfl⟩ : ∃ m, n = m + 1 := ⟨n - 1, by omega⟩
    rw [List.cons_append, List.cons_append, List.append_assoc,
      stringBytes_escaped (escaped_unit h hn' _), ih (by omega)]
    simp [bytes_cons']
  | pair h h' hh hl _ ih =>
    simp only [List.length_cons, List.length_append] at hn
    obtain ⟨n, rfl⟩ : ∃ m, n = m + 1 := ⟨n - 1, by omega⟩
    simp only [List.cons_append, List.append_assoc]
    rw [stringBytes_escaped (escaped_pair h h' hh hl _), ih (by omega)]
    simp [bytes_cons']

/-! ## Where a string ends -/

theorem SpellsUnit.of_hexUnit {bs rest : Bytes} {n : Nat} (h : Json.hexUnit bs = .ok (n, rest)) :
    ∃ us, SpellsUnit us n ∧ bs = us ++ rest := by
  unfold Json.hexUnit at h
  split at h
  · rename_i a b c d rest'
    split at h
    · rename_i ha hb hc hd
      cases h
      exact ⟨_, .mk ha hb hc hd, rfl⟩
    · cases h
  · cases h

theorem SpellsUnit.of_lowHalf {bs rest : Bytes} {low : Nat} (h : lowHalf bs = .ok (low, rest)) :
    ∃ us, SpellsUnit us low ∧ bs = byteOf '\\' :: byteOf 'u' :: (us ++ rest) := by
  unfold lowHalf at h
  split at h
  · cases h
  rename_i b bs
  split at h
  · cases h
  rename_i hb
  split at h
  · cases h
  rename_i u bs
  split at h
  · cases h
  rename_i hu
  obtain ⟨⟨unit, mid⟩, hunit, next⟩ := exists_ok_of_bind h
  obtain ⟨us, hus, rfl⟩ := of_hexUnit hunit
  dsimp only at next
  split at next
  · cases next
    exact ⟨us, hus, by rw [eq_byteOf (not_not.1 hb), eq_byteOf (not_not.1 hu)]⟩
  · cases next

/-- What an escape takes may stand in a string. -/
theorem IsBody.of_escaped {bs rest : Bytes} {c : Char} (h : escaped bs = .ok (c, rest)) :
    ∃ front, bs = front ++ rest ∧
      ∀ more, IsBody more → IsBody (byteOf '\\' :: (front ++ more)) := by
  unfold escaped at h
  split at h
  · cases h
  rename_i b bs
  split at h
  · rename_i hb
    obtain ⟨⟨unit, mid⟩, hunit, next⟩ := exists_ok_of_bind h
    obtain ⟨us, hus, rfl⟩ := SpellsUnit.of_hexUnit hunit
    rw [eq_byteOf hb]
    dsimp only at next
    split at next
    · cases next
    · split at next
      · obtain ⟨⟨low, mid'⟩, hlow, last⟩ := exists_ok_of_bind next
        obtain ⟨-, rfl⟩ := Prod.mk.inj (Except.ok.inj last)
        obtain ⟨vs, hvs, rfl⟩ := SpellsUnit.of_lowHalf hlow
        refine ⟨byteOf 'u' :: (us ++ byteOf '\\' :: byteOf 'u' :: vs), by simp, fun more hm => ?_⟩
        rw [List.cons_append, List.append_assoc]
        exact .unit hus (.unit hvs hm)
      · cases next
        exact ⟨byteOf 'u' :: us, rfl, fun more hm => .unit hus hm⟩
  · split at h
    · rename_i c' hc
      cases h
      exact ⟨[b], rfl, fun more hm => .short (by rw [hc]; rfl) hm⟩
    · cases h

/-- What is read as a string may stand between quotes. -/
theorem IsBody.of_stringBytes {n : Nat} {taken bs taken' rest : Bytes}
    (h : stringBytes n taken bs = .ok (taken', rest)) :
    ∃ body, IsBody body ∧ bs = body ++ byteOf '"' :: rest := by
  induction n generalizing taken bs with
  | zero => cases h
  | succ n ih =>
    cases bs with
    | nil => cases h
    | cons b bs =>
      rw [stringBytes] at h
      split at h
      · rename_i hb
        cases h
        exact ⟨[], .nil, by rw [eq_byteOf hb, List.nil_append]⟩
      rename_i hq
      split at h
      · rename_i hb
        split at h
        · rename_i c mid he
          obtain ⟨front, rfl, grow⟩ := IsBody.of_escaped he
          obtain ⟨body, hbody, rfl⟩ := ih h
          exact ⟨_, grow body hbody, by rw [eq_byteOf hb]; simp⟩
        · cases h
      rename_i hs
      split at h
      · cases h
      rename_i hc
      obtain ⟨body, hbody, rfl⟩ := ih h
      exact ⟨b :: body, .plain ⟨hq, hs, hc⟩ hbody, rfl⟩

/-- What is skipped as a string may stand between quotes. -/
theorem IsBody.of_skipStringBytes {n : Nat} {bs rest : Bytes}
    (h : skipStringBytes n bs = .ok rest) :
    ∃ body, IsBody body ∧ bs = body ++ byteOf '"' :: rest := by
  induction n generalizing bs with
  | zero => cases h
  | succ n ih =>
    cases bs with
    | nil => cases h
    | cons b bs =>
      unfold skipStringBytes at h
      split at h
      · rename_i hb
        cases h
        exact ⟨[], .nil, by rw [eq_byteOf hb, List.nil_append]⟩
      rename_i hq
      split at h
      · rename_i hb
        rw [eq_byteOf hb]
        split at h
        · cases h
        rename_i e bs
        split at h
        · rename_i he
          rw [eq_byteOf he]
          split at h
          · rename_i unit mid hunit
            obtain ⟨us, hus, rfl⟩ := SpellsUnit.of_hexUnit hunit
            obtain ⟨body, hbody, rfl⟩ := ih h
            exact ⟨_, .unit hus hbody, by simp⟩
          · cases h
        · split at h
          · rename_i hshort
            obtain ⟨body, hbody, rfl⟩ := ih h
            exact ⟨_, .short hshort hbody, rfl⟩
          · cases h
      rename_i hs
      split at h
      · cases h
      rename_i hc
      obtain ⟨body, hbody, rfl⟩ := ih h
      exact ⟨b :: body, .plain ⟨hq, hs, hc⟩ hbody, rfl⟩

/-- **A string ends at one place only.** -/
theorem IsBody.unique {bs cs rest rest' : Bytes} (hb : IsBody bs) (hc : IsBody cs)
    (h : bs ++ byteOf '"' :: rest = cs ++ byteOf '"' :: rest') : bs = cs ∧ rest = rest' := by
  have quote : Char.ofUInt8 (byteOf '"') = '"' := by decide
  have slash : Char.ofUInt8 (byteOf '\\') = '\\' := by decide
  have noShort : shortEscape? (byteOf 'u') = none := by decide
  induction hb generalizing cs with
  | nil =>
    cases hc with
    | nil => exact ⟨rfl, (List.cons.inj h).2⟩
    | plain hp _ => exact absurd ((List.cons.inj h).1 ▸ quote) hp.1
    | short _ _ => cases (List.cons.inj h).1
    | unit _ _ => cases (List.cons.inj h).1
  | plain hp _ ih =>
    cases hc with
    | nil => exact absurd ((List.cons.inj h).1 ▸ quote) hp.1
    | plain _ hc =>
      obtain ⟨rfl, further⟩ := List.cons.inj h
      obtain ⟨rfl, rfl⟩ := ih hc further
      exact ⟨rfl, rfl⟩
    | short _ _ => exact absurd ((List.cons.inj h).1 ▸ slash) hp.2.1
    | unit _ _ => exact absurd ((List.cons.inj h).1 ▸ slash) hp.2.1
  | short he _ ih =>
    cases hc with
    | nil => cases (List.cons.inj h).1
    | plain hp _ => exact absurd ((List.cons.inj h).1 ▸ slash) hp.2.1
    | short _ hc =>
      obtain ⟨rfl, further⟩ := List.cons.inj (List.cons.inj h).2
      obtain ⟨rfl, rfl⟩ := ih hc further
      exact ⟨rfl, rfl⟩
    | unit _ _ =>
      obtain ⟨rfl, -⟩ := List.cons.inj (List.cons.inj h).2
      rw [noShort] at he
      cases he
  | unit hu _ ih =>
    cases hc with
    | nil => cases (List.cons.inj h).1
    | plain hp _ => exact absurd ((List.cons.inj h).1 ▸ slash) hp.2.1
    | short he _ =>
      obtain ⟨rfl, -⟩ := List.cons.inj (List.cons.inj h).2
      rw [noShort] at he
      cases he
    | unit hu' hc =>
      simp only [List.cons_append, List.append_assoc, List.cons.injEq, true_and] at h
      obtain ⟨rfl, further⟩ := List.append_inj h (hu.length.trans hu'.length.symm)
      obtain ⟨rfl, rfl⟩ := ih hc further
      exact ⟨rfl, rfl⟩

/-! ## Strings -/

/-- **A string is read as what it stands for.** -/
theorem Reader.stringBody_denotes {bs : Bytes} {s : String} (h : Denotes bs s.toList)
    (rest : Bytes) : Yields stringBody (bs ++ byteOf '"' :: rest) s rest := by
  have taken := stringBytes_denotes h (n := (bs ++ byteOf '"' :: rest).length) (by simp) [] rest
  refine (Yields.get _).bind ((Yields.lift taken _).bind ((Yields.set _ _).bind ?_))
  simp only [List.reverse_nil, List.nil_append, ← encode_eq_bytes, decode?_encode]
  exact .pure _ _

theorem bytes_stringChars (s : String) :
    bytes (stringChars s) =
      byteOf '"' :: (bytes (s.toList.flatMap escapeChar) ++ [byteOf '"']) := by
  rw [stringChars, List.cons_append, bytes_cons (by decide), bytes_append,
    bytes_cons (by decide) [], bytes_nil]

end MemoTransfer.Json
