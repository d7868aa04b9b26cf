import MemoTransfer.Proofs.Json.Reads
import MemoTransfer.Proofs.Number.Decimal

/-!
# Reading back a number

A numeral with digits in the right places is read as its parts (`numeral_yields_front`). The digits
of an integer are such a numeral, and so are those of a finite floating-point number, wherever its
point is placed: the decimal that they spell has the value of the shortest one
(`placePoint_spells`, `scientific_spells`), which is enough to get the number back
(`Gives.floating`).
-/

namespace MemoTransfer.Json

open MemoTransfer.Utf8 MemoTransfer.Number

/-! ## Numerals -/

/-- At least one digit, and nothing else. -/
def IsRun (ds : List Char) : Prop := ds ≠ [] ∧ ∀ c ∈ ds, c.isDigit = true

/-- The point and the digits after it. -/
def fractionChars : Option (List Char) → List Char
  | some ds => '.' :: ds
  | none => []

/-- The letter and the power of ten after it. -/
def powerChars : Option Int → List Char
  | some p => 'e' :: (if p < 0 then '-' else '+') :: natDigits p.natAbs
  | none => []

/-- The characters are the power of ten: a letter of either case, a sign that may be left out, and
digits. -/
inductive SpellsPower : Option Int → List Char → Prop
  | none : SpellsPower none []
  | some {letter : Char} {sign ds : List Char} (hl : letter ∈ ['e', 'E'])
    (hs : sign ∈ [[], ['+'], ['-']]) (run : IsRun ds) :
    SpellsPower (some (if sign = ['-'] then -(digitsValue ds : Int) else digitsValue ds))
      (letter :: (sign ++ ds))

namespace Numeral

/-- A numeral up to its power of ten. -/
def front (n : Numeral) : List Char :=
  (if n.negative then ['-'] else []) ++ (n.whole ++ fractionChars n.fraction)

/-- A numeral as it is written. -/
def chars (n : Numeral) : List Char :=
  (if n.negative then ['-'] else []) ++
    (n.whole ++ (fractionChars n.fraction ++ powerChars n.power))

theorem chars_eq_front (n : Numeral) : n.chars = n.front ++ powerChars n.power := by
  simp only [chars, front, List.append_assoc]

/-- The parts are what a numeral may have: no zero stands before other digits of the whole. -/
structure WellFormed (n : Numeral) : Prop where
  whole : IsRun n.whole
  lead : n.whole.head? = some '0' → n.whole.length = 1
  fraction : ∀ ds ∈ n.fraction, IsRun ds

end Numeral

theorem isRun_natDigits (n : Nat) : IsRun (natDigits n) :=
  ⟨natDigits_ne_nil n, fun _ => isDigit_of_mem_natDigits⟩

theorem isRun_zero : IsRun ['0'] := ⟨by simp, by simp⟩

theorem IsRun.head {ds : List Char} (h : IsRun ds) :
    ∃ c cs, ds = c :: cs ∧ c.isDigit = true := by
  obtain ⟨c, cs, rfl⟩ := List.exists_cons_of_ne_nil h.1
  exact ⟨c, cs, rfl, h.2 c List.mem_cons_self⟩

/-- A power is written with a small letter and a sign. -/
theorem spellsPower_powerChars (p : Option Int) : SpellsPower p (powerChars p) := by
  cases p with
  | none => exact .none
  | some p =>
    have run := isRun_natDigits p.natAbs
    have size := digitsValue_natDigits p.natAbs
    by_cases hp : p < 0
    · have spelled := @SpellsPower.some 'e' ['-'] _ (by decide) (by decide) run
      rw [if_pos rfl, size, show -(p.natAbs : Int) = p by omega] at spelled
      rwa [powerChars, if_pos hp]
    · have spelled := @SpellsPower.some 'e' ['+'] _ (by decide) (by decide) run
      rw [if_neg (by decide), size, show (p.natAbs : Int) = p by omega] at spelled
      rwa [powerChars, if_neg hp]

theorem isDigitByte_byteOf {c : Char} (h : c.toNat < 128) :
    isDigitByte (byteOf c) = c.isDigit := by
  rw [isDigitByte, ofUInt8_byteOf h]

/-! ## Parts of a numeral -/

namespace Reader

theorem digitRun_yields {ds : List Char} (h : ∀ c ∈ ds, c.isDigit = true) {rest : Bytes}
    (hr : ∀ b ∈ rest.head?, isDigitByte b = false) :
    Yields digitRun (bytes ds ++ rest) ds rest := by
  have ascii : ∀ c ∈ ds, c.toNat < 128 := fun c hc => toNat_lt_of_isDigit (h c hc)
  have hd : ∀ b ∈ bytes ds, isDigitByte b = true := by
    rw [bytes_eq_map ascii]
    intro b hb
    obtain ⟨c, hc, rfl⟩ := List.mem_map.1 hb
    rw [isDigitByte_byteOf (ascii c hc), h c hc]
  have htake : rest.takeWhile isDigitByte = [] := by
    cases rest with
    | nil => rfl
    | cons b bs => rw [List.takeWhile_cons_of_neg (by simp [hr b rfl])]
  have hdrop : rest.dropWhile isDigitByte = rest := by
    cases rest with
    | nil => rfl
    | cons b bs => rw [List.dropWhile_cons_of_neg (by simp [hr b rfl])]
  have back : (bytes ds).map Char.ofUInt8 = ds := by
    rw [bytes_eq_map ascii, List.map_map]
    refine (List.map_congr_left fun c hc => ?_).trans (List.map_id ds)
    exact ofUInt8_byteOf (ascii c hc)
  refine (Yields.get _).bind ?_
  rw [List.dropWhile_append_of_pos hd, List.takeWhile_append_of_pos hd, htake, hdrop,
    List.append_nil, back]
  exact (Yields.set _ _).bind (.pure _ _)

theorem someDigits_yields {ds : List Char} (h : IsRun ds) {rest : Bytes}
    (hr : ∀ b ∈ rest.head?, isDigitByte b = false) (ended : Fault) :
    Yields (someDigits ended) (bytes ds ++ rest) ds rest := by
  refine (digitRun_yields h.2 hr).bind ?_
  obtain ⟨c, cs, rfl, -⟩ := h.head
  exact .pure _ _

theorem take?_yields_true {c : Char} (hc : c.toNat < 128) (rest : Bytes) :
    Yields (take? c) (byteOf c :: rest) true rest := by
  have next : Yields (nextIs c) (byteOf c :: rest) true (byteOf c :: rest) := by
    refine (Yields.get _).bind ?_
    rw [List.head?_cons, Option.map_some, ofUInt8_byteOf hc, decide_eq_true rfl]
    exact .pure _ _
  exact next.bind ((advance_yields _ rest).bind (.pure _ _))

theorem take?_yields_false {c : Char} {bs : Bytes} (h : ∀ b ∈ bs.head?, Char.ofUInt8 b ≠ c) :
    Yields (take? c) bs false bs := by
  have next : Yields (nextIs c) bs false bs := by
    refine (Yields.get _).bind ?_
    have : ¬(bs.head?.map Char.ofUInt8 = some c) := by
      intro e
      obtain ⟨b, hb, hbc⟩ := Option.map_eq_some_iff.1 e
      exact h b hb hbc
    rw [decide_eq_false this]
    exact .pure _ _
  exact next.bind (.pure _ _)

/-- Where digits come next, there is no mark. -/
theorem take?_yields_run {ds : List Char} (run : IsRun ds) {c : Char} (hc : c.isDigit = false)
    (rest : Bytes) : Yields (take? c) (bytes ds ++ rest) false (bytes ds ++ rest) := by
  obtain ⟨d, ds, rfl, hd⟩ := run.head
  refine take?_yields_false fun b hb => ?_
  rw [bytes_cons (toNat_lt_of_isDigit hd)] at hb
  cases hb
  rw [ofUInt8_byteOf (toNat_lt_of_isDigit hd)]
  rintro rfl
  rw [hc] at hd
  cases hd

theorem power_yields {p : Option Int} {cs : List Char} (h : SpellsPower p cs) {rest : Bytes}
    (hr : EndsNumeral rest) (ended : Fault) :
    Yields (power ended) (bytes cs ++ rest) p rest := by
  cases h with
  | none =>
    have no : ∀ c ∈ ['e', 'E'], Yields (take? c) rest false rest := by
      refine fun c hc => take?_yields_false fun b hb e => (hr b hb).2 ?_
      rw [e]
      exact List.mem_cons_of_mem _ hc
    exact (no 'e' (by decide)).bind ((no 'E' (by decide)).bind (.pure _ _))
  | @some letter sign ds hl hs run =>
    have digits := someDigits_yields run (fun b hb => (hr b hb).1) ended
    have signed : Yields (do
        let isNegative ← if ← take? '+' then pure false else take? '-'
        let size : Int := digitsValue (← someDigits ended)
        return some (if isNegative then -size else size))
        (bytes (sign ++ ds) ++ rest)
        (some (if sign = ['-'] then -(digitsValue ds : Int) else digitsValue ds)) rest := by
      rw [bytes_append, List.append_assoc]
      simp only [List.mem_cons, List.not_mem_nil, or_false] at hs
      rcases hs with rfl | rfl | rfl
      · exact (take?_yields_run run (by decide) rest).bind
          ((take?_yields_run run (by decide) rest).bind (digits.bind (.pure _ _)))
      · exact (take?_yields_true (c := '+') (by decide) _).bind
          ((Yields.pure _ _).bind (digits.bind (.pure _ _)))
      · have plus : Yields (take? '+') (byteOf '-' :: (bytes ds ++ rest)) false _ :=
          take?_yields_false fun b hb => by
            cases hb
            decide
        exact plus.bind ((take?_yields_true (c := '-') (by decide) _).bind
          (digits.bind (.pure _ _)))
    simp only [List.mem_cons, List.not_mem_nil, or_false] at hl
    rcases hl with rfl | rfl
    · rw [bytes_cons (by decide), List.cons_append]
      exact (take?_yields_true (c := 'e') (by decide) _).bind ((Yields.pure _ _).bind signed)
    · have small : Yields (take? 'e') (byteOf 'E' :: (bytes (sign ++ ds) ++ rest)) false _ :=
        take?_yields_false fun b hb => by
          cases hb
          decide
      rw [bytes_cons (by decide), List.cons_append]
      exact small.bind ((take?_yields_true (c := 'E') (by decide) _).bind signed)

theorem fractionDigits_yields {f : Option (List Char)} (hf : ∀ ds ∈ f, IsRun ds) {rest : Bytes}
    (hr : ∀ b ∈ rest.head?, isDigitByte b = false ∧ Char.ofUInt8 b ≠ '.') (ended : Fault) :
    Yields (fractionDigits ended) (bytes (fractionChars f) ++ rest) f rest := by
  cases f with
  | none => exact (take?_yields_false fun b hb => (hr b hb).2).bind (.pure _ _)
  | some ds =>
    rw [fractionChars, bytes_cons (by decide), List.cons_append]
    refine (take?_yields_true (by decide) _).bind ?_
    exact (someDigits_yields (hf ds rfl) (fun b hb => (hr b hb).1) ended).bind (.pure _ _)

theorem wholeDigits_yields {ds : List Char} (h : IsRun ds)
    (lead : ds.head? = some '0' → ds.length = 1) {rest : Bytes}
    (hr : ∀ b ∈ rest.head?, isDigitByte b = false) (ended : Fault) :
    Yields (wholeDigits ended) (bytes ds ++ rest) ds rest := by
  refine (someDigits_yields h hr ended).bind ?_
  rw [if_neg fun e => e.2 (lead e.1)]
  exact .pure _ _

/-- **A well-formed numeral is read as its parts**, however its power of ten is spelled. -/
theorem numeral_yields_front {n : Numeral} (h : n.WellFormed) {cs : List Char}
    (hp : SpellsPower n.power cs) {rest : Bytes} (hr : EndsNumeral rest) (ended : Fault) :
    Yields (numeral ended) (bytes (n.front ++ cs) ++ rest) n rest := by
  obtain ⟨negative, whole, fraction, power⟩ := n
  -- the letter of a power and the point end the digits before them
  have afterFraction : ∀ b ∈ (bytes cs ++ rest).head?,
      isDigitByte b = false ∧ Char.ofUInt8 b ≠ '.' := by
    intro b hb
    cases hp with
    | none => exact ⟨(hr b hb).1, fun e => (hr b hb).2 (e ▸ List.mem_cons_self)⟩
    | some hl =>
      simp only [List.mem_cons, List.not_mem_nil, or_false] at hl
      rcases hl with rfl | rfl <;>
      · rw [bytes_cons (by decide)] at hb
        cases hb
        decide
  have afterWhole : ∀ b ∈ (bytes (fractionChars fraction) ++ (bytes cs ++ rest)).head?,
      isDigitByte b = false := by
    intro b hb
    cases fraction with
    | none => exact (afterFraction b hb).1
    | some ds =>
      rw [fractionChars, bytes_cons (by decide)] at hb
      cases hb
      decide
  have parts : bytes (Numeral.front ⟨negative, whole, fraction, power⟩ ++ cs) ++ rest =
      bytes (if negative then ['-'] else []) ++ (bytes whole ++ (bytes (fractionChars fraction) ++
        (bytes cs ++ rest))) := by
    simp only [Numeral.front, bytes_append, List.append_assoc]
  have sign (bs : Bytes) : Yields (take? '-')
      (bytes (if negative then ['-'] else []) ++ (bytes whole ++ bs)) negative
      (bytes whole ++ bs) := by
    cases negative with
    | true => exact take?_yields_true (by decide) _
    | false => exact take?_yields_run h.whole (by decide) bs
  rw [parts]
  refine (sign _).bind ((wholeDigits_yields h.whole h.lead afterWhole ended).bind ?_)
  refine (fractionDigits_yields h.fraction afterFraction ended).bind ?_
  exact (power_yields hp hr ended).bind (.pure _ _)

end Reader

/-! ## Integers -/

/-- The first character of a numeral is a minus or a digit. -/
theorem Numeral.WellFormed.exists_cons {n : Numeral} (h : n.WellFormed) (cs : List Char) :
    ∃ c ds, n.front ++ cs = c :: ds ∧ (c = '-' ∨ c.isDigit = true) := by
  obtain ⟨c, ds, e, hc⟩ := h.whole.head
  unfold Numeral.front
  rw [e]
  cases n.negative with
  | true => exact ⟨'-', _, rfl, .inl rfl⟩
  | false => exact ⟨c, _, rfl, .inr hc⟩

/-- What a numeral is written with. -/
theorem Numeral.WellFormed.of_mem {n : Numeral} (h : n.WellFormed) {cs : List Char}
    (hp : SpellsPower n.power cs) {c : Char} (hc : c ∈ n.front ++ cs) :
    c.isDigit = true ∨ c ∈ ['-', '+', '.', 'e', 'E'] := by
  have fraction (hc : c ∈ fractionChars n.fraction) : c.isDigit = true ∨ c = '.' := by
    cases hf : n.fraction with
    | none =>
      rw [hf] at hc
      cases hc
    | some ds =>
      rw [hf, fractionChars] at hc
      rcases List.mem_cons.1 hc with rfl | hc
      · exact .inr rfl
      · exact .inl ((h.fraction ds hf).2 c hc)
  simp only [front, List.mem_append] at hc
  rcases hc with (hc | hc | hc) | hc
  · split at hc
    · rw [List.mem_singleton.1 hc]
      decide
    · cases hc
  · exact .inl (h.whole.2 c hc)
  · exact (fraction hc).imp_right fun e => by rw [e]; decide
  · generalize n.power = power at hp
    cases hp with
    | none => cases hc
    | some hl hs run =>
      rcases List.mem_cons.1 hc with rfl | hc
      · fin_cases hl <;> decide
      · rcases List.mem_append.1 hc with hc | hc
        · fin_cases hs
          · cases hc
          · rw [List.mem_singleton.1 hc]
            decide
          · rw [List.mem_singleton.1 hc]
            decide
        · exact .inl (run.2 c hc)

theorem opens_of_sign {c : Char} (h : c = '-' ∨ c.isDigit = true) : Opens c := by
  rcases h with rfl | h
  · decide
  · exact .inl h

/-- No numeral begins with any other character. -/
theorem ne_of_sign {c d : Char} (h : c = '-' ∨ c.isDigit = true)
    (hd : ¬(d = '-' ∨ d.isDigit = true)) : c ≠ d := by
  rintro rfl
  exact hd h

/-- A numeral begins with its sign or a digit and is read as its value. -/
theorem Numeral.number_yields {n : Numeral} (h : n.WellFormed) {cs : List Char}
    (hp : SpellsPower n.power cs) {m : Magnitude} (hm : n.value = .ok m) :
    ∃ c tl, bytes (n.front ++ cs) = byteOf c :: tl ∧ (c = '-' ∨ c.isDigit = true) ∧
      ∀ rest, EndsNumeral rest → Yields Reader.number (byteOf c :: (tl ++ rest)) m rest := by
  obtain ⟨c, ds, e, hc⟩ := h.exists_cons cs
  have first : bytes (n.front ++ cs) = byteOf c :: bytes ds := by
    rw [e, bytes_cons (opens_of_sign hc).toNat_lt]
  refine ⟨c, bytes ds, first, hc, fun rest hr => ?_⟩
  rw [← List.cons_append, ← first]
  exact (Reader.numeral_yields_front h hp hr _).bind (.lift hm _)

theorem Gives.numberOf {n : Numeral} (h : n.WellFormed) {cs : List Char}
    (hp : SpellsPower n.power cs) {m : Magnitude} (hm : n.value = .ok m) (expected : String) :
    Gives (Reader.numberOf expected) (bytes (n.front ++ cs)) m := by
  obtain ⟨c, tl, e, hc, number⟩ := n.number_yields h hp hm
  rw [e]
  refine ⟨⟨c, tl, rfl, opens_of_sign hc⟩, fun space rest hs hr => ?_⟩
  refine (Reader.start_yields hs (opens_of_sign hc) _).bind ?_
  rw [if_pos hc]
  exact number rest hr

/-- The numeral of an integer. -/
def Numeral.ofInt (i : Int) : Numeral := ⟨decide (i < 0), natDigits i.natAbs, none, none⟩

theorem Numeral.chars_ofInt (i : Int) : (ofInt i).chars = intDigits i := by
  cases i with
  | ofNat n =>
    have nonneg : ¬Int.ofNat n < 0 := Int.not_lt.2 (Int.natCast_nonneg n)
    rw [chars, ofInt, decide_eq_false nonneg]
    exact List.append_nil _
  | negSucc n =>
    rw [chars, ofInt, decide_eq_true (Int.negSucc_lt_zero n)]
    exact congrArg ('-' :: ·) (List.append_nil _)

theorem wellFormed_lead (n : Nat) : (natDigits n).head? = some '0' → (natDigits n).length = 1 := by
  intro h
  rw [eq_zero_of_head?_natDigits h]
  rfl

theorem Numeral.wellFormed_ofInt (i : Int) : (ofInt i).WellFormed :=
  ⟨isRun_natDigits _, wellFormed_lead _, fun ds h => by cases h⟩

theorem Numeral.integer?_ofInt {i : Int} (hl : -2 ^ 63 ≤ i) (hm : i < 2 ^ 64) :
    (ofInt i).integer? = some i := by
  simp only [integer?, ofInt, Option.isSome_none, Bool.or_self, Bool.false_eq_true, ↓reduceIte,
    digitsValue_natDigits, decide_eq_true_eq]
  split_ifs with hi h h
  · rw [show -(i.natAbs : Int) = i by omega]
  · omega
  · rw [show (i.natAbs : Int) = i by omega]
  · omega

theorem Numeral.value_ofInt {i : Int} (hl : -2 ^ 63 ≤ i) (hm : i < 2 ^ 64) :
    (ofInt i).value = .ok (.integer i) := by
  rw [value, integer?_ofInt hl hm]

/-- The digits of an integer within the bounds. -/
theorem Gives.integerOf {i least most : Int} (hl : -2 ^ 63 ≤ least) (hm : most < 2 ^ 64)
    (h : least ≤ i ∧ i ≤ most) (expected : String) :
    Gives (Reader.integerOf expected least most) (bytes (intDigits i)) i := by
  rw [← Numeral.chars_ofInt, Numeral.chars_eq_front]
  have number := Gives.numberOf (Numeral.wellFormed_ofInt i) (spellsPower_powerChars _)
    (Numeral.value_ofInt (by omega) (by omega)) expected
  refine ⟨number.begins, fun space rest hs hr => (number.yields space rest hs hr).bind ?_⟩
  show Yields (if least ≤ i ∧ i ≤ most then _ else _) _ _ _
  rw [if_pos h]
  exact .pure _ _

theorem Gives.int64 (n : Int64) : Gives Reader.int64 (bytes (intDigits n.toInt)) n := by
  have h : -2 ^ 63 ≤ n.toInt ∧ n.toInt ≤ 2 ^ 63 - 1 := by
    have := n.le_toInt
    have := n.toInt_lt
    omega
  have := (Gives.integerOf (by decide) (by decide) h "i64").map (f := Int64.ofInt)
  rwa [Int64.ofInt_toInt] at this

theorem Gives.uint32 (n : UInt32) : Gives Reader.uint32 (bytes (intDigits n.toNat)) n := by
  have := n.toNat_lt
  have read : Gives (Reader.integerOf "u32" 0 (2 ^ 32 - 1)) (bytes (intDigits n.toNat)) n.toNat :=
    .integerOf (by decide) (by decide) (by omega) _
  have read := read.map (f := fun i => UInt32.ofNat i.toNat)
  rwa [Int.toNat_natCast, UInt32.ofNat_toNat] at read

theorem Gives.uint64 (n : UInt64) : Gives Reader.uint64 (bytes (intDigits n.toNat)) n := by
  have := n.toNat_lt
  have read : Gives (Reader.integerOf "u64" 0 (2 ^ 64 - 1)) (bytes (intDigits n.toNat)) n.toNat :=
    .integerOf (by decide) (by decide) (by omega) _
  have read := read.map (f := fun i => UInt64.ofNat i.toNat)
  rwa [Int.toNat_natCast, UInt64.ofNat_toNat] at read

/-! ## Floating-point numbers -/

/-- The decimal that a numeral spells. -/
def Numeral.decimal (n : Numeral) : Decimal :=
  ⟨digitsValue (n.whole ++ n.fraction.getD []), n.power.getD 0 - (n.fraction.getD []).length⟩

/-- The characters are a numeral without a sign, which is no integer, and its decimal has the
magnitude. -/
def Spells (cs : List Char) (b : Nat) : Prop :=
  ∃ n : Numeral, n.WellFormed ∧ n.negative = false ∧ n.chars = cs ∧
    (n.fraction.isSome ∨ n.power.isSome) ∧
    Binary64.decimalMagnitude n.decimal.digits n.decimal.exponent = b

theorem isRun_zeros_append {n : Nat} {ds : List Char} (h : IsRun ds) :
    IsRun (List.replicate n '0' ++ ds) := by
  refine ⟨List.append_ne_nil_of_right_ne_nil _ h.1, fun c hc => ?_⟩
  rcases List.mem_append.1 hc with hc | hc
  · rw [List.eq_of_mem_replicate hc]
    rfl
  · exact h.2 c hc

theorem isRun_append_zeros {n : Nat} {ds : List Char} (h : IsRun ds) :
    IsRun (ds ++ List.replicate n '0') := by
  refine ⟨List.append_ne_nil_of_left_ne_nil h.1 _, fun c hc => ?_⟩
  rcases List.mem_append.1 hc with hc | hc
  · exact h.2 c hc
  · rw [List.eq_of_mem_replicate hc]
    rfl

section Layouts

open Binary64

variable {ds : List Char} (run : IsRun ds)

include run

/-- Zeros stand between the point and the digits. -/
theorem spells_zeros_before (k : Nat) :
    Spells (['0', '.'] ++ List.replicate k '0' ++ ds)
      (decimalMagnitude (digitsValue ds) (-(k + ds.length : Nat))) := by
  refine ⟨⟨false, ['0'], some (List.replicate k '0' ++ ds), none⟩,
    ⟨isRun_zero, fun _ => rfl, fun es hes => ?_⟩, rfl, ?_, .inl rfl, ?_⟩
  · cases hes
    exact isRun_zeros_append run
  · simp [Numeral.chars, fractionChars, powerChars]
  · have digits : digitsValue (['0'] ++ (List.replicate k '0' ++ ds)) = digitsValue ds := by
      rw [← List.append_assoc, ← List.replicate_one, ← List.replicate_add, digitsValue_zeros_append]
    simp only [Numeral.decimal, Option.getD_some, Option.getD_none, digits, List.length_append,
      List.length_replicate]
    rw [Int.zero_sub]

variable (lead : ds.head? ≠ some '0')

include lead

/-- Zeros stand between the digits and the point. -/
theorem spells_zeros_behind (k : Nat) :
    Spells (ds ++ List.replicate k '0' ++ ['.', '0']) (decimalMagnitude (digitsValue ds) k) := by
  have hl : (ds ++ List.replicate k '0').head? = ds.head? := by
    rw [List.head?_append_of_ne_nil _ run.1]
  refine ⟨⟨false, ds ++ List.replicate k '0', some ['0'], none⟩,
    ⟨isRun_append_zeros run, fun e => absurd (hl ▸ e) lead, fun es hes => ?_⟩, rfl, ?_, .inl rfl,
    ?_⟩
  · cases hes
    exact isRun_zero
  · simp [Numeral.chars, fractionChars, powerChars]
  · have digits : digitsValue (ds ++ List.replicate k '0' ++ ['0']) =
        digitsValue ds * 10 ^ (k + 1) := by
      rw [List.append_assoc, ← List.replicate_succ', digitsValue_append_zeros]
    simp only [Numeral.decimal, Option.getD_some, Option.getD_none, digits]
    rw [decimalMagnitude_mul_pow]
    congr 1
    simp only [List.length_singleton]
    omega

/-- The point stands among the digits. -/
theorem spells_point {n : Nat} (h0 : 0 < n) (hn : n < ds.length) :
    Spells (ds.take n ++ '.' :: ds.drop n)
      (decimalMagnitude (digitsValue ds) (-(ds.length - n : Nat))) := by
  have htake : IsRun (ds.take n) := by
    refine ⟨?_, fun c hc => run.2 c (List.mem_of_mem_take hc)⟩
    rw [ne_eq, List.take_eq_nil_iff, not_or]
    exact ⟨Nat.ne_of_gt h0, run.1⟩
  have hdrop : IsRun (ds.drop n) := by
    refine ⟨?_, fun c hc => run.2 c (List.mem_of_mem_drop hc)⟩
    rw [ne_eq, List.drop_eq_nil_iff]
    omega
  have hl : (ds.take n).head? = ds.head? := by
    rw [List.head?_take, if_neg (Nat.ne_of_gt h0)]
  refine ⟨⟨false, ds.take n, some (ds.drop n), none⟩,
    ⟨htake, fun e => absurd (hl ▸ e) lead, fun es hes => ?_⟩, rfl, ?_, .inl rfl, ?_⟩
  · cases hes
    exact hdrop
  · simp [Numeral.chars, fractionChars, powerChars]
  · simp only [Numeral.decimal, Option.getD_some, Option.getD_none, List.take_append_drop,
      List.length_drop]
    rw [Int.zero_sub]

omit lead in
/-- The point stands after the first digit, and a power of ten says where it belongs. -/
theorem scientific_spells (power : Int) :
    Spells (scientific ds power)
      (decimalMagnitude (digitsValue ds) (power - (ds.length - 1 : Nat))) := by
  obtain ⟨c, cs, rfl⟩ := List.exists_cons_of_ne_nil run.1
  have first : IsRun [c] := by
    refine ⟨List.cons_ne_nil _ _, fun c' hc => ?_⟩
    rw [List.mem_singleton.1 hc]
    exact run.2 c List.mem_cons_self
  cases cs with
  | nil =>
    refine ⟨⟨false, [c], none, some power⟩, ⟨first, fun _ => rfl, fun es hes => by cases hes⟩, rfl,
      rfl, .inr rfl, ?_⟩
    simp [Numeral.decimal]
  | cons d cs =>
    have rest : IsRun (d :: cs) :=
      ⟨List.cons_ne_nil _ _, fun c' hc => run.2 c' (List.mem_cons_of_mem c hc)⟩
    refine ⟨⟨false, [c], some (d :: cs), some power⟩, ⟨first, fun _ => rfl, fun es hes => ?_⟩, rfl,
      ?_, .inl rfl, ?_⟩
    · cases hes
      exact rest
    · simp [Numeral.chars, fractionChars, powerChars, scientific]
    · simp [Numeral.decimal]

end Layouts

open Binary64 in
/-- The digits of a decimal spell it, wherever the point is placed. -/
theorem placePoint_spells {d : Nat} (h : 0 < d) (e : Int) :
    Spells (placePoint (natDigits d) ((natDigits d).length + e)) (decimalMagnitude d e) := by
  have lead : (natDigits d).head? ≠ some '0' :=
    fun hz => Nat.ne_of_gt h (eq_zero_of_head?_natDigits hz)
  have run := isRun_natDigits d
  have value := digitsValue_natDigits d
  generalize natDigits d = ds at lead run value ⊢
  subst value
  by_cases hw : (ds.length : Int) + e ≤ 0
  · rw [placePoint, if_pos hw]
    have spelled := spells_zeros_before run (-(ds.length + e)).toNat
    rwa [show -(((-((ds.length : Int) + e)).toNat + ds.length : Nat) : Int) = e by omega] at spelled
  · obtain ⟨n, hn⟩ : ∃ n : Nat, (ds.length : Int) + e = n := ⟨(ds.length + e).toNat, by omega⟩
    rw [placePoint, if_neg hw, hn, Int.toNat_natCast]
    by_cases hle : ds.length ≤ n
    · have spelled := spells_zeros_behind run lead (n - ds.length)
      rw [show ((n - ds.length : Nat) : Int) = e by omega] at spelled
      simpa only [if_pos hle] using spelled
    · have spelled := spells_point run lead (n := n) (by omega) (by omega)
      rw [show -((ds.length - n : Nat) : Int) = e by omega] at spelled
      simpa only [if_neg hle] using spelled

open Binary64 in
theorem magnitudeDigits_spells {b : Nat} (h : b < magnitudeBound) :
    Spells (magnitudeDigits b) b := by
  rcases Nat.eq_zero_or_pos b with rfl | hb
  · exact ⟨⟨false, ['0'], some ['0'], none⟩, ⟨isRun_zero, fun _ => rfl,
      fun es hes => by cases hes; exact isRun_zero⟩, rfl, rfl, .inl rfl, decimalMagnitude_zero _⟩
  · have back := decimalMagnitude_shortest hb h
    have pos := shortest_digits_pos hb h
    have hlen := length_natDigits_pos (shortest b).digits
    rw [magnitudeDigits, if_neg (Nat.ne_of_gt hb)]
    generalize shortest b = d at back pos hlen ⊢
    obtain ⟨digits, exponent⟩ := d
    dsimp only at back pos hlen ⊢
    split_ifs
    · have spelled := placePoint_spells pos exponent
      rwa [back, show ((natDigits digits).length : Int) + exponent =
        (natDigits digits).length + exponent - 1 + 1 by omega] at spelled
    · have spelled := scientific_spells (isRun_natDigits digits)
        ((natDigits digits).length + exponent - 1)
      rwa [digitsValue_natDigits, show (((natDigits digits).length : Int) + exponent - 1 -
        ((natDigits digits).length - 1 : Nat)) = exponent by omega, back] at spelled

/-- A finite number is written as a numeral whose value it is. -/
theorem exists_numeral_of_isFinite {x : Binary64} (h : x.isFinite = true) :
    ∃ n : Numeral, n.WellFormed ∧ n.chars = floatingChars x ∧ n.value = .ok (.floating x) := by
  have hb : x.magnitude < Binary64.magnitudeBound := of_decide_eq_true h
  obtain ⟨n, hn, hneg, hchars, hform, hvalue⟩ := magnitudeDigits_spells hb
  have signed : Numeral.WellFormed { n with negative := x.isNegative } :=
    ⟨hn.whole, hn.lead, hn.fraction⟩
  have chars : Numeral.chars { n with negative := x.isNegative } = floatingChars x := by
    rw [floatingChars, if_pos h, Binary64.digits, ← hchars, Numeral.chars, Numeral.chars, hneg]
    cases x.isNegative <;> rfl
  have value : Numeral.value { n with negative := x.isNegative } = .ok (.floating x) := by
    have noInteger : Numeral.integer? { n with negative := x.isNegative } = none := by
      rw [Numeral.integer?, if_pos (by simpa using hform)]
    have number : Numeral.floating? { n with negative := x.isNegative } = some x := by
      show Binary64.ofDecimal? x.isNegative n.decimal.digits n.decimal.exponent = some x
      rw [Binary64.ofDecimal?, hvalue, if_pos hb, Binary64.ofMagnitude_magnitude]
    rw [Numeral.value, noInteger, number]
  exact ⟨_, signed, chars, value⟩

/-- **A finite number is read back.** -/
theorem Gives.floating {x : Binary64} (h : x.isFinite = true) :
    Gives Reader.floating (bytes (floatingChars x)) x := by
  obtain ⟨n, signed, chars, value⟩ := exists_numeral_of_isFinite h
  rw [← chars, n.chars_eq_front]
  have number := Gives.numberOf signed (spellsPower_powerChars _) value "f64"
  refine ⟨number.begins, fun space rest hs hr => (number.yields space rest hs hr).bind ?_⟩
  exact .pure _ _

/-! ## All values -/

/-- **Whatever value is written, its first character opens a value.** -/
theorem Value.exists_cons_chars (layout : Layout) (depth : Nat) (v : Value) :
    ∃ c cs, v.chars layout depth = c :: cs ∧ Opens c := by
  have numeral {n : Numeral} (h : n.WellFormed) : ∃ c cs, n.chars = c :: cs ∧ Opens c := by
    rw [n.chars_eq_front]
    obtain ⟨c, cs, e, hc⟩ := h.exists_cons (powerChars n.power)
    exact ⟨c, cs, e, opens_of_sign hc⟩
  cases v with
  | null => exact ⟨'n', _, rfl, by decide⟩
  | boolean b =>
    cases b with
    | true => exact ⟨'t', _, rfl, by decide⟩
    | false => exact ⟨'f', _, rfl, by decide⟩
  | integer n =>
    rw [chars, ← Numeral.chars_ofInt]
    exact numeral (Numeral.wellFormed_ofInt n)
  | floating x =>
    rw [chars]
    by_cases h : x.isFinite = true
    · obtain ⟨n, hn, e, -⟩ := exists_numeral_of_isFinite h
      rw [← e]
      exact numeral hn
    · rw [floatingChars, if_neg h]
      exact ⟨'n', _, rfl, by decide⟩
  | text s => exact ⟨'"', _, rfl, by decide⟩
  | list vs =>
    cases vs with
    | nil => exact ⟨'[', _, rfl, by decide⟩
    | cons v vs => exact ⟨'[', _, rfl, by decide⟩
  | object ms =>
    cases ms with
    | nil => exact ⟨'\x7b', _, rfl, by decide⟩
    | cons m ms => exact ⟨'\x7b', _, rfl, by decide⟩

end MemoTransfer.Json
