import MemoTransfer.Number.Numeral

/-!
# Decimal digits

What the digits of a number are: their count is given by the powers of ten
(`length_natDigits_le_iff`), the first one is no zero unless it is the only one, and a factor of ten
puts a zero behind them. The value of two runs of digits is that of the first, shifted by the length
of the second, and that of the second (`digitsValue_append`). An integer of 64 bits is read back
from its digits, and no other integer is ever read (`readInt64?_intDigits`). A number filled up to a
width has just that width if it fits, and its value is the number. Numbers of one width stand in the
order of their values (`IsPadded.lt`).
-/

namespace MemoTransfer.Number

/-! ## Values -/

theorem digitsValue_append (ds es : List Char) :
    digitsValue (ds ++ es) = digitsValue ds * 10 ^ es.length + digitsValue es := by
  rw [digitsValue, Nat.ofDigitChars_append, Nat.ofDigitChars_eq_ofDigitChars_zero, Nat.mul_comm]
  rfl

@[simp] theorem digitsValue_replicate_zero (n : Nat) :
    digitsValue (List.replicate n '0') = 0 := by
  rw [digitsValue, Nat.ofDigitChars_replicate_zero, Nat.mul_zero]

/-- Zeros behind digits are a power of ten. -/
theorem digitsValue_append_zeros (ds : List Char) (n : Nat) :
    digitsValue (ds ++ List.replicate n '0') = digitsValue ds * 10 ^ n := by
  rw [digitsValue_append, digitsValue_replicate_zero, List.length_replicate, Nat.add_zero]

/-- Zeros before digits do not count. -/
theorem digitsValue_zeros_append (n : Nat) (ds : List Char) :
    digitsValue (List.replicate n '0' ++ ds) = digitsValue ds := by
  rw [digitsValue_append, digitsValue_replicate_zero, Nat.zero_mul, Nat.zero_add]

/-! ## The digits of a number -/

theorem isDigit_of_mem_natDigits {n : Nat} {c : Char} (h : c ∈ natDigits n) : c.isDigit = true :=
  List.all_eq_true.1 (all_isDigit_natDigits n) c h

theorem length_natDigits_pos (n : Nat) : 0 < (natDigits n).length := Nat.length_toDigits_pos

theorem length_natDigits_le_iff {n k : Nat} (h : 0 < k) :
    (natDigits n).length ≤ k ↔ n < 10 ^ k := Nat.length_toDigits_le_iff (by decide) h

theorem natDigits_of_lt {n : Nat} (h : n < 10) : natDigits n = [Nat.digitChar n] :=
  Nat.toDigits_of_lt_base h

theorem natDigits_of_le {n : Nat} (h : 10 ≤ n) :
    natDigits n = natDigits (n / 10) ++ [Nat.digitChar (n % 10)] :=
  Nat.toDigits_of_base_le (by decide) h

/-- Only the number zero begins with a zero. -/
theorem eq_zero_of_head?_natDigits {n : Nat} (h : (natDigits n).head? = some '0') : n = 0 := by
  induction n using Nat.strongRecOn with
  | ind n ih =>
    by_cases hn : n < 10
    · rw [natDigits_of_lt hn, List.head?_cons] at h
      exact Nat.digitChar_eq_zero.1 (Option.some.inj h)
    · obtain ⟨c, ds, e⟩ := List.exists_cons_of_ne_nil (natDigits_ne_nil (n / 10))
      rw [natDigits_of_le (Nat.le_of_not_lt hn), e, List.cons_append, List.head?_cons] at h
      have := ih (n / 10) (by omega) (by rw [e, List.head?_cons, h])
      omega

theorem natDigits_mul_ten {n : Nat} (h : 0 < n) : natDigits (n * 10) = natDigits n ++ ['0'] := by
  rw [natDigits_of_le (by omega), Nat.mul_div_cancel _ (by decide), Nat.mul_mod_left]
  rfl

theorem length_natDigits_mul_pow {n : Nat} (h : 0 < n) (k : Nat) :
    (natDigits (n * 10 ^ k)).length = (natDigits n).length + k := by
  induction k with
  | zero => rw [Nat.pow_zero, Nat.mul_one, Nat.add_zero]
  | succ k ih =>
    rw [Nat.pow_succ, ← Nat.mul_assoc, natDigits_mul_ten (Nat.mul_pos h (Nat.pow_pos (by decide))),
      List.length_append, ih]
    rfl

/-! ## The digits of an integer -/

theorem mem_intDigits {n : Int} {c : Char} (h : c ∈ intDigits n) : c = '-' ∨ c.isDigit = true := by
  cases n with
  | ofNat n => exact .inr (isDigit_of_mem_natDigits h)
  | negSucc n => exact (List.mem_cons.1 h).imp_right isDigit_of_mem_natDigits

/-- Digits without a sign are read as they are. -/
theorem readInt64?_of_unsigned {c : Char} {ds : List Char} {n : Nat} (digit : c.isDigit = true)
    (value : readNat? (c :: ds) = some n) (h : -2 ^ 63 ≤ Int.ofNat n ∧ Int.ofNat n < 2 ^ 63) :
    readInt64? (c :: ds) = some (Int.ofNat n) := by
  unfold readInt64?
  split
  case h_1 first =>
    obtain rfl := (List.cons.inj first).1
    exact absurd digit (by decide)
  case h_2 first =>
    obtain rfl := (List.cons.inj first).1
    exact absurd digit (by decide)
  case h_3 =>
    rw [value, Option.map_some, Option.bind_eq_bind, Option.bind_some]
    dsimp only
    rw [if_pos h]

/-- Digits after a minus are read as the number with its sign. -/
theorem readInt64?_minus {ds : List Char} {n : Nat} (value : readNat? ds = some n)
    (h : -2 ^ 63 ≤ -(n : Int) ∧ -(n : Int) < 2 ^ 63) : readInt64? ('-' :: ds) = some (-(n : Int)) := by
  unfold readInt64?
  split
  case h_1 first =>
    obtain rfl := (List.cons.inj first).2
    simp only [value, Option.bind_eq_bind, Option.bind_some, Option.pure_def, Option.map_some]
    rw [if_pos h]
  case h_2 first => exact absurd (List.cons.inj first).1 (by decide)
  case h_3 other _ => exact absurd rfl (other ds)

/-- **Reading back an integer.** -/
theorem readInt64?_intDigits {n : Int} (h : -2 ^ 63 ≤ n ∧ n < 2 ^ 63) :
    readInt64? (intDigits n) = some n := by
  cases n with
  | ofNat n =>
    obtain ⟨c, ds, e⟩ := List.exists_cons_of_ne_nil (natDigits_ne_nil n)
    rw [intDigits, e]
    exact readInt64?_of_unsigned (isDigit_of_mem_natDigits (e ▸ List.mem_cons_self))
      (by rw [← e, readNat?_natDigits]) h
  | negSucc n => exact readInt64?_minus (readNat?_natDigits (n + 1)) h

/-- An integer that has been read has 64 bits. -/
theorem inRange_of_readInt64? {cs : List Char} {n : Int} (h : readInt64? cs = some n) :
    -2 ^ 63 ≤ n ∧ n < 2 ^ 63 := by
  unfold readInt64? at h
  split at h
  all_goals
    obtain ⟨value, -, h⟩ := Option.bind_eq_some_iff.1 h
    dsimp only at h
    split at h
    case isTrue inRange =>
      cases h
      exact inRange
    case isFalse => cases h

/-! ## Numbers of a fixed width -/

theorem length_padded {w n : Nat} (hw : 0 < w) (h : n < 10 ^ w) : (padded w n).length = w := by
  have := (length_natDigits_le_iff hw).2 h
  simp only [padded, List.length_append, List.length_replicate]
  omega

theorem isDigit_of_mem_padded {w n : Nat} {c : Char} (h : c ∈ padded w n) : c.isDigit = true := by
  rcases List.mem_append.1 h with h | h
  · rw [List.eq_of_mem_replicate h]
    rfl
  · exact isDigit_of_mem_natDigits h

theorem padded_ne_nil (w n : Nat) : padded w n ≠ [] :=
  List.append_ne_nil_of_right_ne_nil _ (natDigits_ne_nil n)

theorem digitsValue_padded (w n : Nat) : digitsValue (padded w n) = n := by
  rw [padded, digitsValue_zeros_append, digitsValue_natDigits]

/-- So many digits, and what they stand for. -/
structure IsPadded (w n : Nat) (ds : List Char) : Prop where
  length : ds.length = w
  digits : ∀ c ∈ ds, c.isDigit = true
  value : digitsValue ds = n

theorem isPadded_padded {w n : Nat} (hw : 0 < w) (h : n < 10 ^ w) : IsPadded w n (padded w n) :=
  ⟨length_padded hw h, fun _ => isDigit_of_mem_padded, digitsValue_padded w n⟩

/-- Numbers side by side. -/
theorem IsPadded.append {v w n m : Nat} {ds es : List Char} (hd : IsPadded v n ds)
    (he : IsPadded w m es) : IsPadded (v + w) (n * 10 ^ w + m) (ds ++ es) where
  length := by rw [List.length_append, hd.length, he.length]
  digits := List.forall_mem_append.2 ⟨hd.digits, he.digits⟩
  value := by rw [digitsValue_append, hd.value, he.value, he.length]

/-! ## The order of digits -/

theorem isDigit_iff {c : Char} : c.isDigit = true ↔ 48 ≤ c.toNat ∧ c.toNat ≤ 57 := by
  simp only [Char.isDigit, Bool.and_eq_true, decide_eq_true_eq]
  exact Iff.rfl

theorem digitsValue_cons (c : Char) (ds : List Char) :
    digitsValue (c :: ds) = (c.toNat - 48) * 10 ^ ds.length + digitsValue ds := by
  have first : digitsValue [c] = c.toNat - 48 := by
    rw [digitsValue, Nat.ofDigitChars_cons, Nat.ofDigitChars_nil, Nat.mul_zero, Nat.zero_add]
    rfl
  rw [← List.singleton_append, digitsValue_append, first]

theorem digitsValue_lt {ds : List Char} (digits : ∀ c ∈ ds, c.isDigit = true) :
    digitsValue ds < 10 ^ ds.length := by
  induction ds with
  | nil => decide
  | cons c ds ih =>
    rw [List.forall_mem_cons, isDigit_iff] at digits
    have rest := ih digits.2
    have first : c.toNat - 48 ≤ 9 := by omega
    calc digitsValue (c :: ds)
      _ = (c.toNat - 48) * 10 ^ ds.length + digitsValue ds := digitsValue_cons c ds
      _ < (c.toNat - 48) * 10 ^ ds.length + 10 ^ ds.length := Nat.add_lt_add_left rest _
      _ ≤ 9 * 10 ^ ds.length + 10 ^ ds.length :=
        Nat.add_le_add_right (Nat.mul_le_mul_right _ first) _
      _ = 10 ^ (c :: ds).length := by rw [List.length_cons, Nat.pow_succ]; omega

/-- Of two runs of one length, that of the lesser value comes first: the first digits decide, or
else the others do. -/
theorem lt_of_digitsValue_lt {ds es : List Char} (hd : ∀ c ∈ ds, c.isDigit = true)
    (he : ∀ c ∈ es, c.isDigit = true) (len : ds.length = es.length)
    (h : digitsValue ds < digitsValue es) : ds < es := by
  induction ds generalizing es with
  | nil =>
    obtain rfl := List.length_eq_zero_iff.1 len.symm
    exact absurd h (Nat.lt_irrefl _)
  | cons d ds ih =>
    cases es with
    | nil => cases len
    | cons e es =>
      rw [List.forall_mem_cons, isDigit_iff] at hd he
      rw [List.length_cons, List.length_cons, Nat.add_right_cancel_iff] at len
      rw [digitsValue_cons, digitsValue_cons, len] at h
      rw [List.cons_lt_cons_iff]
      rcases Nat.lt_trichotomy d.toNat e.toNat with less | same | more
      · exact .inl less
      · obtain rfl := Char.toNat_inj.1 same
        exact .inr ⟨rfl, ih hd.2 he.2 len (Nat.lt_of_add_lt_add_left h)⟩
      · have most := digitsValue_lt he.2
        have next : (e.toNat - 48) + 1 ≤ d.toNat - 48 := by omega
        have := Nat.mul_le_mul_right (10 ^ es.length) next
        rw [Nat.add_mul, Nat.one_mul] at this
        omega

/-- **Numbers of one width stand in the order of their values.** -/
theorem IsPadded.lt {w n m : Nat} {ds es : List Char} (hd : IsPadded w n ds)
    (he : IsPadded w m es) (h : n < m) : ds < es :=
  lt_of_digitsValue_lt hd.digits he.digits (hd.length.trans he.length.symm)
    (by rwa [hd.value, he.value])

/-- Beginnings of one length decide the order, whatever follows them. -/
theorem append_lt_append {ds es : List Char} (len : ds.length = es.length) (h : ds < es)
    (xs ys : List Char) : ds ++ xs < es ++ ys := by
  induction ds generalizing es with
  | nil =>
    obtain rfl := List.length_eq_zero_iff.1 len.symm
    exact absurd h (List.lt_irrefl _)
  | cons d ds ih =>
    cases es with
    | nil => cases len
    | cons e es =>
      rw [List.length_cons, List.length_cons, Nat.add_right_cancel_iff] at len
      rw [List.cons_append, List.cons_append]
      rw [List.cons_lt_cons_iff] at h ⊢
      exact h.imp_right (And.imp_right fun later => ih len later)

end MemoTransfer.Number
