import Mathlib.Tactic.Positivity
import MemoTransfer.Number.Shortest
import MemoTransfer.Proofs.Number.Digits

/-!
# Reading back a shortest decimal

A decimal reads as the magnitude nearest to its value, so that only the value counts and not how it
is split into digits and an exponent (`decimalMagnitude_mul_pow`). The value of a magnitude, written
out, reads as that magnitude (`decimalMagnitude_exactDecimal`). The shortest decimal of a magnitude
is found among those that read back or is the value itself, and so it reads back in any case
(`decimalMagnitude_shortest`). What is read is finite (`isFinite_of_ofDecimal?`).
-/

namespace MemoTransfer.Number.Binary64

/-! ## Only the quotient counts -/

theorem divToNearest_mul {c : Nat} (hc : 0 < c) (num den : Nat) :
    divToNearest (c * num) (c * den) = divToNearest num den := by
  have hlt : 2 * (c * (num % den)) < c * den ↔ 2 * (num % den) < den := by
    rw [Nat.mul_left_comm]
    exact Nat.mul_lt_mul_left hc
  have heq : 2 * (c * (num % den)) = c * den ↔ 2 * (num % den) = den := by
    rw [Nat.mul_left_comm]
    exact Nat.mul_right_inj (Nat.ne_of_gt hc)
  simp only [divToNearest, Nat.mul_div_mul_left num den hc, Nat.mul_mod_mul_left, hlt, heq]

theorem nearestMagnitude_mul {c : Nat} (hc : 0 < c) (num den : Nat) :
    nearestMagnitude (c * num) (c * den) = nearestMagnitude num den := by
  simp only [nearestMagnitude, Nat.mul_assoc c, Nat.mul_div_mul_left _ den hc,
    divToNearest_mul hc]

theorem divToNearest_mul_self {c : Nat} (hc : 0 < c) (n : Nat) : divToNearest (n * c) c = n := by
  rw [divToNearest, Nat.mul_div_cancel n hc, Nat.mul_mod_left]
  rw [if_pos (by simp [hc])]

/-- Equal quotients have the same nearest magnitude. -/
theorem nearestMagnitude_eq_of_mul_eq {num den num' den' : Nat} (h : 0 < den) (h' : 0 < den')
    (e : num * den' = num' * den) : nearestMagnitude num den = nearestMagnitude num' den' := by
  rw [← nearestMagnitude_mul h' num den, ← nearestMagnitude_mul h num' den', Nat.mul_comm den' num,
    e, Nat.mul_comm den num', Nat.mul_comm den' den]

/-- Powers of two in a denominator may as well be powers of ten. -/
theorem nearestMagnitude_mul_five_pow (num k : Nat) :
    nearestMagnitude (num * 5 ^ k) (10 ^ k) = nearestMagnitude num (2 ^ k) := by
  rw [Nat.mul_comm num, show 10 = 5 * 2 from rfl, Nat.mul_pow,
    nearestMagnitude_mul (Nat.pow_pos (by decide))]

/-! ## Only the value of a decimal counts -/

theorem decimalMagnitude_zero (exponent : Int) : decimalMagnitude 0 exponent = 0 := by
  simp [decimalMagnitude]

/-- A power of ten among the digits may as well stand in the exponent. -/
theorem decimalMagnitude_mul_pow (digits k : Nat) (exponent : Int) :
    decimalMagnitude (digits * 10 ^ k) exponent = decimalMagnitude digits (exponent + k) := by
  rcases Nat.eq_zero_or_pos digits with rfl | hd
  · rw [Nat.zero_mul, decimalMagnitude_zero, decimalMagnitude_zero]
  have hk : 0 < 10 ^ k := Nat.pow_pos (by decide)
  have hzero : (digits * 10 ^ k = 0) = (digits = 0) := by
    rw [Nat.mul_eq_zero, or_iff_left (Nat.ne_of_gt hk)]
  have hplaces : ((natDigits (digits * 10 ^ k)).length : Int) + exponent =
      (natDigits digits).length + (exponent + k) := by
    rw [length_natDigits_mul_pow hd]
    omega
  simp only [decimalMagnitude, hzero, hplaces]
  congr 2
  -- where the point stands before and after the shift
  split_ifs with h h'
  · obtain ⟨n, rfl⟩ := Int.eq_ofNat_of_zero_le h
    rw [show ((n : Int) + k).toNat = k + n by omega, Int.toNat_natCast, Nat.pow_add, Nat.mul_assoc]
  · omega
  · obtain ⟨n, hn⟩ : ∃ n : Nat, exponent = -(n : Int) := ⟨exponent.natAbs, by omega⟩
    obtain ⟨m, rfl⟩ : ∃ m : Nat, k = n + m := ⟨k - n, by omega⟩
    subst hn
    rw [show (-(n : Int) + ↑(n + m)).toNat = m by omega, show (- -(n : Int)).toNat = n by omega]
    apply nearestMagnitude_eq_of_mul_eq (Nat.pow_pos (by decide)) (by decide)
    rw [Nat.pow_add, Nat.mul_one, Nat.mul_assoc, Nat.mul_comm (10 ^ n)]
  · obtain ⟨m, hm⟩ : ∃ m : Nat, exponent = -((m + k : Nat) : Int) :=
      ⟨(exponent + k).natAbs, by omega⟩
    subst hm
    rw [show (-(-((m + k : Nat) : Int) + k)).toNat = m by omega,
      show (- -((m + k : Nat) : Int)).toNat = m + k by omega]
    apply nearestMagnitude_eq_of_mul_eq (Nat.pow_pos (by decide)) (Nat.pow_pos (by decide))
    rw [Nat.pow_add, Nat.mul_assoc, Nat.mul_comm (10 ^ k)]

theorem decimalMagnitude_strip (d : Decimal) :
    decimalMagnitude d.strip.digits d.strip.exponent = decimalMagnitude d.digits d.exponent := by
  have go : ∀ (n : Nat) (d : Decimal),
      decimalMagnitude (Decimal.strip.go n d).digits (Decimal.strip.go n d).exponent =
        decimalMagnitude d.digits d.exponent := by
    intro n
    induction n with
    | zero =>
      intro d
      rfl
    | succ n ih =>
      intro d
      rw [Decimal.strip.go]
      split_ifs with h
      · rw [Bool.and_eq_true, decide_eq_true_eq, decide_eq_true_eq] at h
        have e := decimalMagnitude_mul_pow (d.digits / 10) 1 d.exponent
        rw [show d.digits / 10 * 10 ^ 1 = d.digits by omega] at e
        rw [ih, e]
        rfl
      · rfl
  exact go _ d

/-! ## The value of a magnitude -/

/-- Magnitudes in the first two steps count the units themselves. -/
theorem magnitudeUnits_of_lt {b : Nat} (h : b < 2 ^ 52) : magnitudeUnits b = b := by
  simp only [magnitudeUnits, Nat.div_eq_of_lt h]
  omega

/-- Further on a magnitude is a step and a significand of 53 bits. -/
theorem exists_significand {b : Nat} (h : 2 ^ 52 ≤ b) :
    ∃ step r, r < 2 ^ 52 ∧ b = step * 2 ^ 52 + (2 ^ 52 + r) ∧
      magnitudeUnits b = (2 ^ 52 + r) * 2 ^ step := by
  have hq : 1 ≤ b / 2 ^ 52 := by omega
  refine ⟨b / 2 ^ 52 - 1, b % 2 ^ 52, Nat.mod_lt _ (Nat.two_pow_pos 52), by omega, ?_⟩
  simp only [magnitudeUnits]
  congr 1
  omega

theorem magnitudeUnits_pos {b : Nat} (h : 0 < b) : 0 < magnitudeUnits b := by
  rcases Nat.lt_or_ge b (2 ^ 52) with hb | hb
  · rwa [magnitudeUnits_of_lt hb]
  · obtain ⟨step, r, -, -, e⟩ := exists_significand hb
    rw [e]
    exact Nat.mul_pos (by omega) (Nat.two_pow_pos step)

theorem magnitudeUnits_lt {b : Nat} (h : b < magnitudeBound) : magnitudeUnits b < 2 ^ 2098 := by
  rcases Nat.lt_or_ge b (2 ^ 52) with hb | hb
  · rw [magnitudeUnits_of_lt hb]
    exact Nat.lt_trans hb (Nat.pow_lt_pow_right (by decide) (by decide))
  · obtain ⟨step, r, hr, e, eu⟩ := exists_significand hb
    have hs : step ≤ 2045 := by
      unfold magnitudeBound at h
      omega
    calc magnitudeUnits b = (2 ^ 52 + r) * 2 ^ step := eu
      _ < 2 ^ 53 * 2 ^ step := Nat.mul_lt_mul_of_pos_right (by omega) (Nat.two_pow_pos step)
      _ ≤ 2 ^ 53 * 2 ^ 2045 := Nat.mul_le_mul_left _ (Nat.pow_le_pow_right (by decide) hs)
      _ = 2 ^ 2098 := by rw [← Nat.pow_add]

/-- The value in units of the least positive number has the magnitude as its nearest one. -/
theorem nearestMagnitude_units {b : Nat} (h : 0 < b) :
    nearestMagnitude (magnitudeUnits b) (2 ^ 1074) = b := by
  have hk : 0 < 2 ^ 1074 := Nat.two_pow_pos 1074
  rw [nearestMagnitude, Nat.mul_div_cancel _ hk]
  generalize 2 ^ 1074 = k at hk ⊢
  rcases Nat.lt_or_ge b (2 ^ 52) with hb | hb
  · have hlog : Nat.log2 b - 52 = 0 := by
      have := (Nat.log2_lt (Nat.ne_of_gt h)).2 hb
      omega
    rw [magnitudeUnits_of_lt hb, hlog, Nat.pow_zero, Nat.mul_one, divToNearest_mul_self hk,
      Nat.zero_mul, Nat.zero_add]
  · obtain ⟨step, r, hr, e, eu⟩ := exists_significand hb
    have hlog : Nat.log2 (magnitudeUnits b) = 52 + step := by
      rw [Nat.log2_eq_iff (Nat.ne_of_gt (magnitudeUnits_pos h)), eu]
      constructor
      · rw [Nat.pow_add]
        exact Nat.mul_le_mul_right _ (by omega)
      · rw [show 52 + step + 1 = 53 + step by omega, Nat.pow_add]
        exact Nat.mul_lt_mul_of_pos_right (by omega) (Nat.two_pow_pos step)
    have hks : 0 < k * 2 ^ step := Nat.mul_pos hk (Nat.two_pow_pos step)
    rw [hlog, Nat.add_sub_cancel_left, eu, Nat.mul_assoc, Nat.mul_comm (2 ^ step),
      divToNearest_mul_self hks, e]

/-! ## Shortest decimals -/

theorem decimalMagnitude_exactDecimal {b : Nat} (h : 0 < b) (hb : b < magnitudeBound) :
    decimalMagnitude (exactDecimal b).digits (exactDecimal b).exponent = b := by
  have hu := magnitudeUnits_pos h
  have hpos : 0 < magnitudeUnits b * 5 ^ 1074 := Nat.mul_pos hu (Nat.pow_pos (by decide))
  have hlow : ¬(natDigits (magnitudeUnits b * 5 ^ 1074)).length ≤ 673 := by
    rw [length_natDigits_le_iff (by decide), Nat.not_lt]
    calc 10 ^ 673 ≤ 1 * 5 ^ 1074 := by decide +kernel
      _ ≤ magnitudeUnits b * 5 ^ 1074 := Nat.mul_le_mul_right _ hu
  have hhigh : (natDigits (magnitudeUnits b * 5 ^ 1074)).length ≤ 1474 := by
    rw [length_natDigits_le_iff (by decide)]
    calc magnitudeUnits b * 5 ^ 1074 < 2 ^ 2098 * 5 ^ 1074 :=
          Nat.mul_lt_mul_of_pos_right (magnitudeUnits_lt hb) (Nat.pow_pos (by decide))
      _ ≤ 10 ^ 1474 := by decide +kernel
  have hn : ¬(0 : Int) ≤ -1074 := by decide
  have value : nearestMagnitude (magnitudeUnits b * 5 ^ 1074) (10 ^ 1074) = b := by
    rw [nearestMagnitude_mul_five_pow, nearestMagnitude_units h]
  have digits : (decide (magnitudeUnits b * 5 ^ 1074 = 0) ||
      decide (((natDigits (magnitudeUnits b * 5 ^ 1074)).length : Int) + -1074 < -400)) =
        false := by
    rw [Bool.or_eq_false_iff, decide_eq_false_iff_not, decide_eq_false_iff_not]
    exact ⟨Nat.ne_of_gt hpos, by omega⟩
  show decimalMagnitude (magnitudeUnits b * 5 ^ 1074) (-1074) = b
  rw [decimalMagnitude, digits, if_neg Bool.false_ne_true, if_neg (by omega), if_neg hn]
  exact value

/-- **The shortest decimal of a magnitude reads back.** -/
theorem decimalMagnitude_shortest {b : Nat} (h : 0 < b) (hb : b < magnitudeBound) :
    decimalMagnitude (shortest b).digits (shortest b).exponent = b := by
  rw [shortest, decimalMagnitude_strip]
  cases hf : List.find? (readsBack b) ((List.range 17).flatMap fun n : Nat =>
      neighbours b (leadingPlace b - n)) with
  | some d =>
    rw [Option.getD_some]
    have back := List.find?_some hf
    rw [readsBack, decide_eq_true_eq] at back
    exact back
  | none =>
    rw [Option.getD_none]
    exact decimalMagnitude_exactDecimal h hb

theorem shortest_digits_pos {b : Nat} (h : 0 < b) (hb : b < magnitudeBound) :
    0 < (shortest b).digits := by
  rw [Nat.pos_iff_ne_zero]
  intro h0
  have := decimalMagnitude_shortest h hb
  rw [h0, decimalMagnitude_zero] at this
  exact Nat.ne_of_gt h this.symm

/-! ## Signs -/

/-- A number is its sign and its magnitude. -/
theorem ofMagnitude_magnitude (x : Binary64) : ofMagnitude x.isNegative x.magnitude = x := by
  obtain ⟨bits⟩ := x
  simp only [ofMagnitude, isNegative, magnitude, mk.injEq, decide_eq_true_eq]
  rw [← UInt64.toNat_inj, UInt64.toNat_ofNat']
  have := bits.toNat_lt
  split_ifs <;> omega

theorem magnitude_ofMagnitude {negative : Bool} {b : Nat} (h : b < magnitudeBound) :
    (ofMagnitude negative b).magnitude = b := by
  unfold magnitudeBound at h
  simp only [ofMagnitude, magnitude]
  rw [UInt64.toNat_ofNat']
  split_ifs <;> omega

/-- What a decimal is read as is finite. -/
theorem isFinite_of_ofDecimal? {negative : Bool} {digits : Nat} {exponent : Int} {x : Binary64}
    (h : ofDecimal? negative digits exponent = some x) : x.isFinite = true := by
  unfold ofDecimal? at h
  dsimp only at h
  split_ifs at h with hb
  cases h
  rw [isFinite, magnitude_ofMagnitude hb]
  exact decide_eq_true hb

end MemoTransfer.Number.Binary64
