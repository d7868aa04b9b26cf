import Mathlib.Tactic.SplitIfs
import MemoTransfer.Calendar.Reader
import MemoTransfer.Proofs.Calendar.Days
import MemoTransfer.Proofs.Number.Digits
import MemoTransfer.Proofs.Reading

/-!
# Reading back an instant

The written form of an instant is taken apart in the order in which it was put together: a year with
or without a sign (`year_yields`), numbers of two digits (`twoDigits_yields`), and a fraction of as
many digits as are needed (`fraction_yields`). Since counting the days of a date undoes finding it,
the seconds are those of the instant, and so every instant is read back (`Instant.read_text`), also
one in a leap second.
-/

namespace MemoTransfer.Calendar

open MemoTransfer.Number MemoTransfer.Text

/-- No digit goes on into the text. -/
def EndsDigits (rest : List Char) : Prop := ∀ c ∈ rest.head?, c.isDigit = false

/-- The text begins with a character that is no white space. -/
def BeginsVisibly (cs : List Char) : Prop := ∀ c ∈ cs.head?, isBlank c = false

theorem endsDigits_cons {c : Char} (h : c.isDigit = false) (cs : List Char) :
    EndsDigits (c :: cs) := by
  intro d hd
  cases hd
  exact h

theorem beginsVisibly_cons {c : Char} (h : isBlank c = false) (cs : List Char) :
    BeginsVisibly (c :: cs) := by
  intro d hd
  cases hd
  exact h

theorem beginsVisibly_digits {ds : List Char} (hne : ds ≠ [])
    (h : ∀ c ∈ ds, c.isDigit = true) (rest : List Char) : BeginsVisibly (ds ++ rest) := by
  obtain ⟨c, cs, rfl⟩ := List.exists_cons_of_ne_nil hne
  exact beginsVisibly_cons (isBlank_of_isDigit (h c List.mem_cons_self)) _

namespace TimeReader

/-! ## Marks and digits -/

theorem blanks_yields {cs : List Char} (h : BeginsVisibly cs) : Yields blanks cs ⟨⟩ cs := by
  have e : trimStart cs = cs := by
    cases cs with
    | nil => rfl
    | cons c cs => rw [trimStart, List.dropWhile_cons_of_neg (by simp [h c rfl])]
  have := Yields.modify (ε := TimeFault) trimStart cs
  rwa [e] at this

theorem mark_yields (c : Char) (rest : List Char) : Yields (mark c) (c :: rest) ⟨⟩ rest := by
  refine (Yields.get _).bind ?_
  simp only [↓reduceIte]
  exact .set _ _

/-- A mark that follows at once, and what comes after it. -/
theorem afterMark_yields {α : Type} {c : Char} (h : isBlank c = false) {next : TimeReader α}
    {v : α} {rest t : List Char} (hn : Yields next rest v t) :
    Yields (do blanks; mark c; next) (c :: rest) v t :=
  (blanks_yields (beginsVisibly_cons h rest)).bind ((mark_yields c rest).bind hn)

theorem digits_yields {most : Option Nat} {ds : List Char} (hne : ds ≠ [])
    (h : ∀ c ∈ ds, c.isDigit = true) (hm : ∀ n ∈ most, ds.length ≤ n) {rest : List Char}
    (hr : EndsDigits rest) : Yields (digits most) (ds ++ rest) ds rest := by
  have run : (ds ++ rest).takeWhile Char.isDigit = ds := by
    rw [List.takeWhile_append_of_pos h]
    cases rest with
    | nil => exact List.append_nil ds
    | cons c cs => rw [List.takeWhile_cons_of_neg (by simp [hr c rfl]), List.append_nil]
  have some : (ds ++ rest).isEmpty = false := by simp [hne]
  have given : ds.isEmpty = false := by simp [hne]
  refine (Yields.get _).bind ?_
  cases most with
  | none =>
    simp only [run, some, given, Bool.false_eq_true, ↓reduceIte, List.drop_left]
    exact (Yields.set _ _).bind (.pure _ _)
  | some n =>
    simp only [run, List.take_of_length_le (hm n rfl), some, given, Bool.false_eq_true, ↓reduceIte,
      List.drop_left]
    exact (Yields.set _ _).bind (.pure _ _)

theorem twoDigits_yields {least most n : Nat} (hl : least ≤ n) (hm : n ≤ most) (hn : n < 100)
    {rest : List Char} (hr : EndsDigits rest) :
    Yields (twoDigits least most) (padded 2 n ++ rest) n rest := by
  have hd : ∀ c ∈ padded 2 n, c.isDigit = true := fun c hc => isDigit_of_mem_padded hc
  have two : ∀ k ∈ some 2, (padded 2 n).length ≤ k := by
    intro k hk
    cases hk
    rw [length_padded (by decide) hn]
  refine (blanks_yields (beginsVisibly_digits (padded_ne_nil 2 n) hd rest)).bind ?_
  refine (digits_yields (padded_ne_nil 2 n) hd two hr).bind ?_
  rw [digitsValue_padded, if_pos ⟨hl, hm⟩]
  exact .pure _ _

/-! ## Date -/

theorem year_yields {y : Int} (h0 : -2 ^ 31 ≤ y) (h1 : y < 2 ^ 31) {rest : List Char}
    (hr : EndsDigits rest) : Yields year (Instant.yearDigits y ++ rest) y rest := by
  have hd : ∀ n, ∀ c ∈ padded 4 n, c.isDigit = true := fun n c hc => isDigit_of_mem_padded hc
  have signed : ∀ n, Yields (digits none) (padded 4 n ++ rest) (padded 4 n) rest := fun n =>
    digits_yields (padded_ne_nil 4 n) (hd n) (fun k hk => by cases hk) hr
  have bounds : Yields (if -2 ^ 31 ≤ y ∧ y < 2 ^ 31 then pure y else throw TimeFault.outOfRange :
      TimeReader Int) rest y rest := by
    rw [if_pos ⟨h0, h1⟩]
    exact .pure _ _
  unfold Instant.yearDigits
  split_ifs with hy hn
  · have four : ∀ k ∈ some 4, (padded 4 y.toNat).length ≤ k := by
      intro k hk
      cases hk
      rw [length_padded (by decide) (by omega)]
    have read := digits_yields (padded_ne_nil 4 y.toNat) (hd _) four hr
    obtain ⟨c, cs, e⟩ := List.exists_cons_of_ne_nil (padded_ne_nil 4 y.toNat)
    have hc : c.isDigit = true := hd y.toNat c (e ▸ List.mem_cons_self)
    refine (blanks_yields (beginsVisibly_digits (padded_ne_nil 4 _) (hd _) rest)).bind ?_
    refine (Yields.get _).bind ?_
    rw [e, List.cons_append] at read ⊢
    split
    · rename_i h
      rw [(List.cons.inj h).1] at hc
      exact absurd hc (by decide)
    · rename_i h
      rw [(List.cons.inj h).1] at hc
      exact absurd hc (by decide)
    · refine read.bind ((Yields.pure _ _).bind ?_)
      rw [← e, digitsValue_padded, Int.toNat_of_nonneg hy.1]
      exact bounds
  · refine (blanks_yields (beginsVisibly_cons rfl _)).bind ((Yields.get _).bind ?_)
    refine (Yields.set _ _).bind ((signed y.natAbs).bind ((Yields.pure _ _).bind ?_))
    rw [digitsValue_padded, show -(y.natAbs : Int) = y by omega]
    exact bounds
  · refine (blanks_yields (beginsVisibly_cons rfl _)).bind ((Yields.get _).bind ?_)
    refine (Yields.set _ _).bind ((signed y.natAbs).bind ((Yields.pure _ _).bind ?_))
    rw [digitsValue_padded, show (y.natAbs : Int) = y by omega]
    exact bounds

theorem date_yields {d : Date} (hv : d.isValid = true) (h0 : -2 ^ 31 ≤ d.year)
    (h1 : d.year < 2 ^ 31) {rest : List Char} (hr : EndsDigits rest) :
    Yields date (Instant.yearDigits d.year ++
      '-' :: (padded 2 d.month ++ '-' :: (padded 2 d.day ++ rest))) d rest := by
  obtain ⟨⟨m1, m12⟩, d1, dm⟩ := Date.bounds_of_isValid hv
  have dash : ∀ cs : List Char, EndsDigits ('-' :: cs) := endsDigits_cons rfl
  refine (year_yields h0 h1 (dash _)).bind ?_
  refine afterMark_yields rfl ?_
  refine (twoDigits_yields m1 m12 (by omega) (dash _)).bind ?_
  refine afterMark_yields rfl ?_
  exact (twoDigits_yields d1 dm (by omega) hr).bind (.pure _ _)

/-! ## Time of day -/

/-- As many digits as are left of the fraction, and the zeros that they leave out. -/
theorem fraction_yields {f : Nat} (hf : f < 10 ^ 9) {rest : List Char} (hr : EndsDigits rest)
    (hp : ∀ c ∈ rest.head?, c ≠ '.') :
    Yields fraction (Instant.fractionDigits f ++ rest) f rest := by
  -- a point and so many digits
  have point : ∀ w k n : Nat, 0 < w → w + k = 9 → n < 10 ^ w → n * 10 ^ k = f →
      Yields fraction ('.' :: (padded w n ++ rest)) f rest := by
    intro w k n hw hk hn e
    have len : (padded w n).length = w := length_padded hw hn
    have hd : ∀ c ∈ padded w n, c.isDigit = true := fun c hc => isDigit_of_mem_padded hc
    have nine : ∀ m ∈ some 9, (padded w n).length ≤ m := by
      intro m hm
      cases hm
      omega
    have drop : rest.dropWhile Char.isDigit = rest := by
      cases rest with
      | nil => rfl
      | cons c cs => rw [List.dropWhile_cons_of_neg (by simp [hr c rfl])]
    have further := Yields.modify (ε := TimeFault) (List.dropWhile Char.isDigit) rest
    rw [drop] at further
    refine (Yields.get _).bind ((Yields.set _ _).bind ?_)
    refine (digits_yields (padded_ne_nil w n) hd nine hr).bind (further.bind ?_)
    rw [digitsValue_padded, len, show 9 - w = k by omega, e]
    exact .pure _ _
  unfold Instant.fractionDigits
  split_ifs with h0 h6 h3
  · subst h0
    rw [List.nil_append]
    refine (Yields.get _).bind ?_
    split
    · exact absurd rfl (hp '.' rfl)
    · exact .pure _ _
  · exact point 3 6 (f / 10 ^ 6) (by decide) rfl (by omega) (by omega)
  · exact point 6 3 (f / 10 ^ 3) (by decide) rfl (by omega) (by omega)
  · exact point 9 0 f (by decide) rfl hf (by omega)

end TimeReader

namespace Instant

variable (t : Instant)

theorem secondOfDay_lt : t.secondOfDay < 86400 := by
  unfold secondOfDay
  omega

theorem secondOfDay_eq : t.hour * 3600 + t.minute * 60 + t.secondOfDay % 60 = t.secondOfDay := by
  have := t.secondOfDay_lt
  unfold hour minute
  omega

/-- A leap second is kept in second 59. -/
theorem secondOfDay_mod (h : 10 ^ 9 ≤ t.nanos) : t.secondOfDay % 60 = 59 := by
  have := t.leap h
  unfold secondOfDay
  omega

theorem time_bounds : t.hour ≤ 23 ∧ t.minute ≤ 59 ∧ t.second ≤ 60 := by
  have := t.secondOfDay_lt
  unfold hour minute second
  refine ⟨by omega, by omega, ?_⟩
  split_ifs <;> omega

/-- What the reader of a time of day makes of the second and the fraction. -/
theorem second_fraction :
    (if t.second = 60 then ((t.hour * 60 + t.minute) * 60 + 59, t.fraction + 10 ^ 9)
      else ((t.hour * 60 + t.minute) * 60 + t.second, t.fraction)) = (t.secondOfDay, t.nanos) := by
  have whole := t.secondOfDay_eq
  have nanos := t.nanos_lt
  unfold second fraction
  by_cases h : 10 ^ 9 ≤ t.nanos
  · have leap := t.secondOfDay_mod h
    rw [if_pos h, if_pos (by omega)]
    exact Prod.ext (by dsimp only; omega) (by dsimp only; omega)
  · rw [if_neg h, if_neg (by omega)]
    exact Prod.ext (by dsimp only; omega) (by dsimp only; omega)

end Instant

namespace TimeReader

theorem timeOfDay_yields (t : Instant) {rest : List Char} (hr : EndsDigits rest)
    (hp : ∀ c ∈ rest.head?, c ≠ '.') :
    Yields timeOfDay (padded 2 t.hour ++ ':' :: (padded 2 t.minute ++ ':' ::
      (padded 2 t.second ++ (Instant.fractionDigits t.fraction ++ rest))))
      (t.secondOfDay, t.nanos) rest := by
  obtain ⟨hour, minute, second⟩ := t.time_bounds
  have colon : ∀ cs : List Char, EndsDigits (':' :: cs) := endsDigits_cons rfl
  have afterSecond : EndsDigits (Instant.fractionDigits t.fraction ++ rest) := by
    unfold Instant.fractionDigits
    split_ifs
    · exact hr
    · exact endsDigits_cons rfl _
    · exact endsDigits_cons rfl _
    · exact endsDigits_cons rfl _
  refine (twoDigits_yields (Nat.zero_le _) hour (by omega) (colon _)).bind ?_
  refine afterMark_yields rfl ?_
  refine (twoDigits_yields (Nat.zero_le _) minute (by omega) (colon _)).bind ?_
  refine afterMark_yields rfl ?_
  refine (twoDigits_yields (Nat.zero_le _) second (by omega) afterSecond).bind ?_
  have fraction : t.fraction < 10 ^ 9 := Nat.mod_lt _ (by decide)
  refine (fraction_yields fraction hr hp).bind ?_
  dsimp only
  rw [t.second_fraction]
  exact .pure _ _

theorem offset_yields : Yields offset ['Z'] 0 [] :=
  (blanks_yields (beginsVisibly_cons rfl _)).bind
    ((Yields.get _).bind ((Yields.set _ _).bind (.pure _ _)))

theorem finish_yields : Yields finish [] ⟨⟩ [] :=
  (blanks_yields fun c hc => by cases hc).bind ((Yields.get _).bind (.pure _ _))

end TimeReader

/-! ## The whole instant -/

theorem Instant.ofLocal_date (t : Instant) :
    Instant.ofLocal t.date t.secondOfDay t.nanos 0 = .ok t := by
  have year := t.year_bounds
  have days : t.date.toDays = t.seconds / 86400 := Date.toDays_ofDays _
  have seconds : t.seconds / 86400 * 86400 + (t.secondOfDay : Int) - 0 = t.seconds := by
    unfold Instant.secondOfDay
    omega
  have valid : (t.date.isValid && -262143 ≤ t.date.year && t.date.year ≤ 262142) = true := by
    simp only [Bool.and_eq_true, decide_eq_true_eq]
    exact ⟨⟨Date.isValid_ofDays _, year.1⟩, year.2⟩
  unfold Instant.ofLocal
  rw [days, seconds, t.ofParts?_seconds_nanos, valid]
  rfl

/-- **An instant is read back from its text.** -/
theorem Instant.read_text (t : Instant) : Instant.read t.text = .ok t := by
  have year := t.year_bounds
  have parts : t.text.toList = Instant.yearDigits t.date.year ++
      '-' :: (padded 2 t.date.month ++ '-' :: (padded 2 t.date.day ++
        'T' :: (padded 2 t.hour ++ ':' :: (padded 2 t.minute ++ ':' ::
          (padded 2 t.second ++ (Instant.fractionDigits t.fraction ++ ['Z'])))))) := by
    simp only [Instant.text, Instant.dateTimeDigits, String.toList_ofList, List.append_assoc,
      List.cons_append]
  have run : Yields TimeReader.instant t.text.toList t [] := by
    rw [parts]
    have valid : t.date.isValid = true := Date.isValid_ofDays _
    refine (TimeReader.date_yields valid (by omega) (by omega)
      (endsDigits_cons rfl _)).bind ?_
    have separator : ∀ cs : List Char, Yields TimeReader.separator ('T' :: cs) ⟨⟩ cs := fun cs =>
      (Yields.get _).bind (.set _ _)
    refine (separator _).bind ?_
    refine (TimeReader.timeOfDay_yields t (endsDigits_cons rfl _) ?_).bind ?_
    · intro c hc
      cases hc
      decide
    · exact TimeReader.offset_yields.bind (TimeReader.finish_yields.bind
        (.lift t.ofLocal_date _))
  unfold Instant.read
  rw [run]
  rfl

end MemoTransfer.Calendar
