import MemoTransfer.Json.Relaxed.Reader
import MemoTransfer.Proofs.Json.Lists
import MemoTransfer.Proofs.Json.Numbers

/-!
# Strict texts as relaxed ones

What is written without white space is relaxed JSON as well, and is read as what it says
(`Relaxed.value_scans`). A string has one piece for each of its characters
(`Relaxed.string?_escapes`), a numeral stays as it is spelled (`Relaxed.scalar?_numeral`), and lists
and objects are read part by part (`Relaxed.parts_scans`) as deep as they nest (`Value.Fits`).
-/

namespace MemoTransfer.Json

open MemoTransfer.Number

/-- The value has at most so many lists and objects one in another. -/
inductive Value.Fits : Nat → Value → Prop
  | null (depth : Nat) : Fits depth .null
  | boolean (depth : Nat) (b : Bool) : Fits depth (.boolean b)
  | integer (depth : Nat) (n : Int) : Fits depth (.integer n)
  | floating (depth : Nat) (x : Binary64) : Fits depth (.floating x)
  | text (depth : Nat) (s : String) : Fits depth (.text s)
  | list {depth : Nat} {vs : List Value} (h : ∀ v ∈ vs, Fits depth v) : Fits (depth + 1) (.list vs)
  | object {depth : Nat} {ms : List (String × Value)} (h : ∀ m ∈ ms, Fits depth m.2) :
    Fits (depth + 1) (.object ms)

/-- A text in its strict spelling. -/
def Spelled.ofText (s : String) : Spelled := .ofPieces (s.toList.map .ofChar)

namespace Relaxed

mutual

/-- A value as a relaxed text holds it. A number that is not finite is written as null. -/
def ofValue : Value → Relaxed
  | .null => .null
  | .boolean b => .boolean b
  | .integer n => .number (intDigits n)
  | .floating x => if x.isFinite then .number x.digits else .null
  | .text s => .text (.ofText s)
  | .list vs => .list (ofItems vs)
  | .object ms => .object (ofMembers ms)

/-- The items of a list. -/
def ofItems : List Value → List Relaxed
  | [] => []
  | v :: vs => ofValue v :: ofItems vs

/-- The members of an object. -/
def ofMembers : List (String × Value) → List (Spelled × Relaxed)
  | [] => []
  | (name, v) :: ms => (.ofText name, ofValue v) :: ofMembers ms

end

@[simp] theorem ofItems_eq_map (vs : List Value) : ofItems vs = vs.map ofValue := by
  induction vs with
  | nil => rfl
  | cons v vs ih => rw [ofItems, ih, List.map_cons]

@[simp] theorem ofMembers_eq_map (ms : List (String × Value)) :
    ofMembers ms = ms.map fun m => (.ofText m.1, ofValue m.2) := by
  induction ms with
  | nil => rfl
  | cons m ms ih => rw [ofMembers, ih, List.map_cons]

end Relaxed

/-! ## Strings -/

namespace Spelled

theorem ofChar_ne_lineBreak (c : Char) : ofChar c ≠ lineBreak := by
  intro h
  cases congrArg codes h

theorem codes_ofText (s : String) : (ofText s).codes = s.toList.map Char.toNat := by
  have last : (s.toList.map ofChar).getLast? ≠ some lineBreak := by
    rw [List.getLast?_map]
    intro h
    obtain ⟨c, -, e⟩ := Option.map_eq_some_iff.1 h
    exact ofChar_ne_lineBreak c e
  simp only [ofText, ofPieces, if_neg last, List.append_nil, List.flatMap_map]
  exact List.map_eq_flatMap.symm

/-- A text stands for itself and for no other one. -/
theorem isText_ofText (s t : String) : (ofText s).isText t = decide (s = t) := by
  have injective : Function.Injective Char.toNat := fun c d h => Char.ext (UInt32.toNat_inj.1 h)
  rw [isText, codes_ofText, decide_eq_decide, injective.list_map.eq_iff, String.toList_inj]

end Spelled

namespace Relaxed

/-- The four digits of a control stand for it. -/
theorem escape?_control {c : Char} (h : c.toNat < 0x20) (rest : List Char) :
    escape? ('u' :: '0' :: '0' :: Nat.digitChar (c.toNat / 16) :: Nat.digitChar (c.toNat % 16) ::
      rest) = some (⟨['\\', 'u', '0', '0', Nat.digitChar (c.toNat / 16),
        Nat.digitChar (c.toNat % 16)], [c.toNat]⟩, rest) := by
  have digit : ∀ k < 16, hexValue? (Nat.digitChar k) = some k := by decide
  have code : hexCode? 4 ('0' :: '0' :: Nat.digitChar (c.toNat / 16) ::
      Nat.digitChar (c.toNat % 16) :: rest) = some c.toNat := by
    have zero : hexValue? '0' = some 0 := by decide
    simp only [hexCode?, List.take_succ_cons, List.take_zero, List.mapM_cons, List.mapM_nil, zero,
      digit _ (show c.toNat / 16 < 16 by omega), digit _ (show c.toNat % 16 < 16 by omega)]
    simp only [Option.bind_eq_bind, Option.bind_some, Option.pure_def, List.length_cons,
      List.length_nil, List.foldl_cons, List.foldl_nil]
    rw [if_pos trivial]
    congr 1
    omega
  have alone : lowHalf? c.toNat rest = none := by
    unfold lowHalf?
    split
    · rw [if_neg (by omega)]
    · rfl
  show codeEscape? _ = _
  rw [codeEscape?, code]
  simp only [Option.bind_eq_bind, Option.bind_some, List.drop_succ_cons, List.drop_zero, alone]
  rfl

/-- A written character is one piece. -/
theorem pieces?_escapeChar (c : Char) (n : Nat) (taken : List Spelled) (rest : List Char) :
    pieces? '"' (n + 1) taken (escapeChar c ++ rest) =
      pieces? '"' n (.ofChar c :: taken) rest := by
  rcases escapeChar_cases c with hm | ⟨hc, e⟩ | ⟨hq, hs, -, e⟩
  · fin_cases hm <;> rfl
  · rw [Spelled.ofChar, e]
    simp only [List.cons_append, List.nil_append]
    rw [pieces?, if_neg (by decide), if_pos rfl, escape?_control hc]
  · rw [Spelled.ofChar, e, List.singleton_append, pieces?, if_neg hq, if_neg hs, Spelled.ofChar, e]

/-- The written characters of a string, up to the closing quote. -/
theorem pieces?_escapes (cs : List Char) {n : Nat} (h : cs.length < n) (taken : List Spelled)
    (rest : List Char) :
    pieces? '"' n taken (cs.flatMap escapeChar ++ '"' :: rest) =
      some (taken.reverse ++ cs.map .ofChar, rest) := by
  induction cs generalizing n taken with
  | nil =>
    obtain ⟨m, rfl⟩ : ∃ m, n = m + 1 := ⟨n - 1, by omega⟩
    rw [List.flatMap_nil, List.nil_append, pieces?, if_pos rfl, List.map_nil, List.append_nil]
  | cons c cs ih =>
    rw [List.length_cons] at h
    obtain ⟨m, rfl⟩ : ∃ m, n = m + 1 := ⟨n - 1, by omega⟩
    rw [List.flatMap_cons, List.append_assoc, pieces?_escapeChar, ih (by omega)]
    simp

theorem length_le_escapes (cs : List Char) : cs.length ≤ (cs.flatMap escapeChar).length := by
  induction cs with
  | nil => exact Nat.le_refl _
  | cons c cs ih =>
    have : 0 < (escapeChar c).length := by
      rcases escapeChar_cases c with hm | ⟨-, e⟩ | ⟨-, -, -, e⟩
      · fin_cases hm <;> decide
      · simp [e]
      · simp [e]
    rw [List.flatMap_cons, List.length_append, List.length_cons]
    omega

/-- **A written string is read as its text.** -/
theorem string?_escapes (s : String) (rest : List Char) :
    string? '"' (s.toList.flatMap escapeChar ++ '"' :: rest) = some (.ofText s, rest) := by
  have fuel : s.toList.length < (s.toList.flatMap escapeChar ++ '"' :: rest).length := by
    have := length_le_escapes s.toList
    simp only [List.length_append, List.length_cons]
    omega
  rw [string?, pieces?_escapes _ fuel]
  rfl

/-! ## Numbers and words -/

/-- The text is at its end, or at a mark that ends a value. -/
def Follows (rest : List Char) : Prop := ∀ c ∈ rest.head?, c ∈ [',', ']', '}']

theorem follows_nil : Follows [] := by
  intro c hc
  cases hc

theorem follows_cons {c : Char} (h : c ∈ [',', ']', '}']) (rest : List Char) :
    Follows (c :: rest) := by
  intro d hd
  cases hd
  exact h

/-- No character of the kind is next. -/
theorem takeWhile_eq_nil {p : Char → Bool} {cs : List Char} (h : ∀ c ∈ cs.head?, p c = false) :
    cs.takeWhile p = [] := by
  cases cs with
  | nil => rfl
  | cons c cs => rw [List.takeWhile_cons_of_neg (by simp [h c rfl])]

theorem takeWhile_run {p : Char → Bool} {ds cs : List Char} (hd : ∀ c ∈ ds, p c = true)
    (h : ∀ c ∈ cs.head?, p c = false) : (ds ++ cs).takeWhile p = ds := by
  rw [List.takeWhile_append_of_pos hd, takeWhile_eq_nil h, List.append_nil]

theorem span_run {p : Char → Bool} {ds cs : List Char} (hd : ∀ c ∈ ds, p c = true)
    (h : ∀ c ∈ cs.head?, p c = false) : (ds ++ cs).span p = (ds, cs) := by
  have rest : cs.dropWhile p = cs := by
    cases cs with
    | nil => rfl
    | cons c cs => rw [List.dropWhile_cons_of_neg (by simp [h c rfl])]
  rw [List.span_eq_takeWhile_dropWhile, takeWhile_run hd h, List.dropWhile_append_of_pos hd, rest]

theorem whole_run {ds cs : List Char} (h : IsRun ds) (lead : ds.head? = some '0' → ds.length = 1)
    (hr : ∀ c ∈ cs.head?, c.isDigit = false) : whole (ds ++ cs) = (ds, cs) := by
  obtain ⟨c, tl, rfl, -⟩ := h.head
  by_cases zero : c = '0'
  · subst zero
    have : tl = [] := by simpa using lead rfl
    subst this
    rfl
  · rw [whole.eq_def]
    split
    · rename_i e
      exact absurd (List.cons.inj e).1 zero
    · exact span_run h.2 hr

theorem fraction?_run {f : Option (List Char)} (hf : ∀ ds ∈ f, IsRun ds) {cs : List Char}
    (hr : ∀ c ∈ cs.head?, c.isDigit = false ∧ c ≠ '.') :
    fraction? (fractionChars f ++ cs) = (f, cs) := by
  cases f with
  | none =>
    rw [fractionChars, List.nil_append, fraction?.eq_def]
    split
    · rename_i e
      exact absurd rfl (hr '.' (by simp)).2
    · rfl
  | some ds =>
    rw [fractionChars, List.cons_append, fraction?, span_run (hf ds rfl).2 fun c hc => (hr c hc).1]

theorem Follows.isDigit {rest : List Char} (h : Follows rest) :
    ∀ c ∈ rest.head?, c.isDigit = false := by
  intro c hc
  have := h c hc
  fin_cases this <;> rfl

theorem power_run (p : Option Int) {rest : List Char} (hr : Follows rest) :
    power (powerChars p ++ rest) = (powerChars p, rest) := by
  cases p with
  | none =>
    rw [powerChars, List.nil_append]
    cases rest with
    | nil => rfl
    | cons c cs =>
      have := hr c rfl
      rw [power]
      fin_cases this <;> rfl
  | some p =>
    have run := isRun_natDigits p.natAbs
    obtain ⟨d, ds, e, hd⟩ := run.head
    have digits : (natDigits p.natAbs ++ rest).takeWhile Char.isDigit = natDigits p.natAbs :=
      takeWhile_run run.2 hr.isDigit
    have stop : (natDigits p.natAbs ++ rest).takeWhile (fun c => c = '+' || c = '-') = [] := by
      refine takeWhile_eq_nil fun c hc => ?_
      rw [e] at hc
      cases hc
      by_contra h
      simp only [Bool.not_eq_false, Bool.or_eq_true, decide_eq_true_eq] at h
      rcases h with rfl | rfl <;> exact absurd hd (by decide)
    have after : ∀ sign, sign = '+' ∨ sign = '-' →
        power ('e' :: sign :: (natDigits p.natAbs ++ rest)) =
          ('e' :: sign :: natDigits p.natAbs, rest) := by
      intro sign hs
      have signs : (sign :: (natDigits p.natAbs ++ rest)).takeWhile
          (fun c => c = '+' || c = '-') = [sign] := by
        rw [List.takeWhile_cons_of_pos (by simpa using hs), stop]
      rw [power]
      simp only [signs, List.length_singleton, List.drop_succ_cons, List.drop_zero, digits]
      have given : (natDigits p.natAbs).isEmpty = false := by simpa using run.1
      simp [given, Nat.add_comm 1]
    rw [powerChars]
    split
    · exact after '-' (.inr rfl)
    · exact after '+' (.inl rfl)

/-- What follows the whole of a numeral. -/
theorem head?_fraction_power {f : Option (List Char)} {p : Option Int} {rest : List Char}
    (hr : Follows rest) :
    ∀ c ∈ (fractionChars f ++ (powerChars p ++ rest)).head?, c ∈ ['.', 'e', ',', ']', '}'] := by
  intro c hc
  cases f with
  | some ds =>
    cases hc
    decide
  | none =>
    cases p with
    | some p =>
      cases hc
      decide
    | none => exact List.mem_cons_of_mem _ (List.mem_cons_of_mem _ (hr c hc))

theorem hexadecimal?_eq_none {cs : List Char}
    (h : ∀ tl, cs = '0' :: tl → ∀ c ∈ tl.head?, c ≠ 'x' ∧ c ≠ 'X') : hexadecimal? cs = none := by
  unfold hexadecimal?
  split
  · rename_i c tl
    have := h _ rfl c rfl
    simp [this]
  · rfl

section Words

variable {names : List String} {c : Char} {cs : List Char}

/-- A word of a few is no numeral. -/
theorem isOneOf_digit (h : (names.all fun s => !s.toList.head?.any Char.isDigit) = true)
    (hc : c.isDigit = true) : isOneOf names (c :: cs) = false := by
  have lower : c.toLower = c := by
    simp only [Char.isDigit, Bool.and_eq_true, decide_eq_true_eq] at hc
    have small : ¬(c.val ≥ 'A'.val ∧ c.val ≤ 'Z'.val) := by
      rintro ⟨h, -⟩
      exact absurd (UInt32.le_trans h hc.2) (by decide)
    exact dif_neg small
  rw [isOneOf, List.contains_eq_mem, decide_eq_false_iff_not]
  intro hm
  have := List.all_eq_true.1 h _ hm
  rw [String.toList_ofList, List.map_cons, List.head?_cons, Option.any_some, lower, hc] at this
  cases this

theorem isInfinite_digit (hc : c.isDigit = true) : isInfinite (c :: cs) = false :=
  isOneOf_digit (by decide) hc

theorem constant?_digit (hc : c.isDigit = true) : constant? (c :: cs) = none := by
  have first : ∀ d ds, String.ofList (c :: cs) = String.ofList (d :: ds) → d.isDigit = true := by
    intro d ds e
    rw [String.ofList_inj] at e
    rw [← (List.cons.inj e).1, hc]
  unfold constant?
  rw [isInfinite_digit hc, isOneOf_digit (by decide) hc]
  simp only [Bool.false_eq_true, ↓reduceIte]
  split
  · rename_i e
    exact absurd (first 'n' _ e) (by decide)
  · rename_i e
    exact absurd (first 't' _ e) (by decide)
  · rename_i e
    exact absurd (first 'f' _ e) (by decide)
  · rfl

theorem word_digit (hc : c.isDigit = true) : word (c :: cs) = c :: word cs := by
  have : c.isAlphanum = true := by simp [Char.isAlphanum, hc]
  rw [word, List.takeWhile_cons_of_pos this]
  rfl

end Words

/-- A numeral after its sign stays as it is spelled. -/
theorem unsigned?_numeral {n : Numeral} (h : n.WellFormed) {rest : List Char} (hr : Follows rest)
    (negative : Bool) :
    unsigned? negative (n.whole ++ (fractionChars n.fraction ++ (powerChars n.power ++ rest))) =
      some (.number ((if negative then ['-'] else []) ++ (n.whole ++
        (fractionChars n.fraction ++ powerChars n.power))), rest) := by
  have next := head?_fraction_power (f := n.fraction) (p := n.power) hr
  have afterWhole : ∀ c ∈ (fractionChars n.fraction ++ (powerChars n.power ++ rest)).head?,
      c.isDigit = false ∧ c ≠ 'x' ∧ c ≠ 'X' := by
    intro c hc
    have := next c hc
    fin_cases this <;> decide
  have afterFraction : ∀ c ∈ (powerChars n.power ++ rest).head?, c.isDigit = false ∧ c ≠ '.' := by
    intro c hc
    cases hp : n.power with
    | none =>
      rw [hp, powerChars, List.nil_append] at hc
      have := hr c hc
      fin_cases this <;> decide
    | some p =>
      rw [hp] at hc
      cases hc
      decide
  have noHex : hexadecimal? (n.whole ++ (fractionChars n.fraction ++
      (powerChars n.power ++ rest))) = none := by
    refine hexadecimal?_eq_none fun tl e c hc => ?_
    -- a zero stands alone, so that what is next comes after the whole
    obtain ⟨d, ds, hd, -⟩ := h.whole.head
    rw [hd, List.cons_append] at e
    obtain ⟨rfl, rfl⟩ := List.cons.inj e
    have alone := h.lead (by rw [hd, List.head?_cons])
    rw [hd, List.length_cons, Nat.add_eq_right, List.length_eq_zero_iff] at alone
    rw [alone] at hc
    exact (afterWhole c hc).2
  have before : n.whole.isEmpty = false := by simpa using h.whole.1
  have decimal : decimal? (n.whole ++ (fractionChars n.fraction ++ (powerChars n.power ++ rest))) =
      some (n.whole ++ (fractionChars n.fraction ++ powerChars n.power), rest) := by
    rw [decimal?, whole_run h.whole h.lead fun c hc => (afterWhole c hc).1]
    simp only [fraction?_run h.fraction afterFraction]
    cases hf : n.fraction with
    | none => simp [before, power_run n.power hr, fractionChars]
    | some ds =>
      have after : ds.isEmpty = false := by simpa using (h.fraction ds hf).1
      simp [before, after, orZero, power_run n.power hr, fractionChars]
  rw [unsigned?, noHex]
  simp only [decimal, Option.map_some]

/-- **A numeral is read as it is spelled.** -/
theorem scalar?_numeral {n : Numeral} (h : n.WellFormed) {rest : List Char} (hr : Follows rest) :
    scalar? (n.chars ++ rest) = some (.number n.chars, rest) := by
  obtain ⟨c, cs, e, hc⟩ := h.whole.head
  have unsigned := unsigned?_numeral h hr n.negative
  rw [Numeral.chars, List.append_assoc, List.append_assoc, List.append_assoc]
  cases hn : n.negative with
  | true =>
    rw [hn] at unsigned
    show signed? true (n.whole ++ (fractionChars n.fraction ++ (powerChars n.power ++ rest))) = _
    rw [signed?, e, List.cons_append, word_digit hc, isInfinite_digit hc, ← List.cons_append, ← e]
    exact unsigned
  | false =>
    rw [hn] at unsigned
    simp only [Bool.false_eq_true, ↓reduceIte, List.nil_append] at unsigned ⊢
    rw [scalar?.eq_def]
    split
    · rename_i e'
      rw [e] at e'
      rw [(List.cons.inj e').1] at hc
      exact absurd hc (by decide)
    · rename_i e'
      rw [e] at e'
      rw [(List.cons.inj e').1] at hc
      exact absurd hc (by decide)
    · rw [e, List.cons_append, word_digit hc, constant?_digit hc, ← List.cons_append, ← e]
      exact unsigned

/-- A word that stands for a value is read as the value. -/
theorem scalar?_word {w : List Char} {v : Relaxed} (letters : w.all Char.isAlphanum = true)
    (h : constant? w = some v) {rest : List Char} (hr : Follows rest) :
    scalar? (w ++ rest) = some (v, rest) := by
  have noLetter : ∀ c ∈ rest.head?, c.isAlphanum = false := by
    intro c hc
    have := hr c hc
    fin_cases this <;> rfl
  have stops : word (w ++ rest) = w := takeWhile_run (List.all_eq_true.1 letters) noLetter
  have noSign : ∀ c ∈ (w ++ rest).head?, c ≠ '+' ∧ c ≠ '-' := by
    intro c hc
    cases w with
    | nil =>
      have := hr c hc
      fin_cases this <;> decide
    | cons d ds =>
      cases hc
      have := List.all_eq_true.1 letters c List.mem_cons_self
      constructor <;> (rintro rfl; exact absurd this (by decide))
  rw [scalar?.eq_def]
  split
  · rename_i e
    exact absurd rfl (noSign '+' (by rw [e, List.head?_cons]; rfl)).1
  · rename_i e
    exact absurd rfl (noSign '-' (by rw [e, List.head?_cons]; rfl)).2
  · rw [stops, h, List.drop_left]

/-! ## Lists and objects -/

/-- The reader takes `v` from the front of the text and leaves the rest. -/
def Scans {α : Type} (act : Scan α) (cs : List Char) (v : α) (rest : List Char) : Prop :=
  act.run cs = some (v, rest)

namespace Scans

variable {α β : Type} {act : Scan α} {f : α → Scan β} {cs ds es : List Char} {v : α} {w : β}

theorem pure (v : α) (cs : List Char) : Scans (pure v) cs v cs := rfl

theorem get (cs : List Char) : Scans get cs cs cs := rfl

theorem set (cs ds : List Char) : Scans (set ds) cs ⟨⟩ ds := rfl

theorem modify (g : List Char → List Char) (cs : List Char) : Scans (modify g) cs ⟨⟩ (g cs) := rfl

theorem lift {o : Option α} (h : o = some v) (cs : List Char) :
    Scans (liftM o : Scan α) cs v cs := by
  subst h
  rfl

theorem bind (h : Scans act cs v ds) (h' : Scans (f v) ds w es) : Scans (act >>= f) cs w es := by
  unfold Scans at h h' ⊢
  rw [StateT.run_bind, h]
  exact h'

end Scans

/-- The character is neither in a gap nor does it begin one. -/
def IsInk (c : Char) : Prop := isGap c = false ∧ c ≠ '/'

instance (c : Char) : Decidable (IsInk c) := inferInstanceAs (Decidable (_ ∧ _))

theorem skipGaps_cons {c : Char} (h : IsInk c) (cs : List Char) :
    skipGaps (c :: cs) = c :: cs := by
  rw [skipGaps.eq_def]
  split
  · rename_i e
    cases e
  · rename_i e
    exact absurd (List.cons.inj e).1 h.2
  · rename_i e
    exact absurd (List.cons.inj e).1 h.2
  · rename_i e
    obtain ⟨rfl, rfl⟩ := List.cons.inj e
    rw [if_neg (by simp [h.1])]

theorem next_scans {c : Char} (h : IsInk c) (cs : List Char) :
    Scans next (c :: cs) c (c :: cs) := by
  refine (Scans.modify skipGaps _).bind ?_
  rw [skipGaps_cons h]
  exact (Scans.get _).bind (.lift rfl _)

theorem mark_scans {c : Char} (h : IsInk c) (cs : List Char) : Scans (mark c) (c :: cs) ⟨⟩ cs := by
  refine (next_scans h cs).bind ?_
  rw [if_pos rfl]
  exact Scans.modify (List.drop 1) _

section Parts

variable {α β : Type} {closing : Char} {part : Scan α} {text : β → List Char} {result : β → α}

/-- The parts after the first one, each after a comma. -/
def further (text : β → List Char) (xs : List β) : List Char := xs.flatMap fun x => ',' :: text x

/-- **Parts that are read one by one are read as a whole**, up to the closing mark. -/
theorem parts_scans (hc : closing ∈ [']', '}'])
    {x : β} {xs : List β}
    (starts : ∀ y ∈ x :: xs, ∃ c cs, text y = c :: cs ∧ IsInk c ∧ c ≠ closing)
    (reads : ∀ y ∈ x :: xs, ∀ rest, Follows rest → Scans part (text y ++ rest) (result y) rest)
    {n : Nat} (hn : xs.length < n) (taken : List α) (rest : List Char) :
    Scans (parts closing part n taken) (text x ++ (further text xs ++ closing :: rest))
      (taken.reverse ++ (x :: xs).map result) rest := by
  have ink : IsInk closing := by fin_cases hc <;> decide
  have ends : Follows (closing :: rest) := follows_cons (List.mem_cons_of_mem _ hc) rest
  -- the next character of a part is no closing mark
  have first : ∀ y ∈ x :: xs, ∀ cs, ∃ c, c ≠ closing ∧
      Scans next (text y ++ cs) c (text y ++ cs) := by
    intro y hy cs
    obtain ⟨c, ds, e, hi, ne⟩ := starts y hy
    rw [e]
    exact ⟨c, ne, next_scans hi _⟩
  induction xs generalizing x n taken with
  | nil =>
    obtain ⟨n, rfl⟩ : ∃ m, n = m + 1 := ⟨n - 1, by omega⟩
    obtain ⟨c, ne, begins⟩ := first x List.mem_cons_self (closing :: rest)
    have read := reads x List.mem_cons_self (closing :: rest) ends
    rw [further, List.flatMap_nil, List.nil_append]
    refine begins.bind ?_
    rw [if_neg ne]
    refine read.bind ((next_scans ink _).bind ?_)
    rw [if_pos rfl]
    refine (mark_scans ink rest).bind ?_
    rw [List.reverse_cons]
    exact Scans.pure _ _
  | cons y ys ih =>
    obtain ⟨n, rfl⟩ : ∃ m, n = m + 1 := ⟨n - 1, by omega⟩
    have comma : IsInk ',' := by decide
    have apart : ',' ≠ closing := by fin_cases hc <;> decide
    obtain ⟨c, ne, begins⟩ := first x List.mem_cons_self
      (further text (y :: ys) ++ closing :: rest)
    have read := reads x List.mem_cons_self (further text (y :: ys) ++ closing :: rest)
      (follows_cons (by decide) _)
    have others := ih (fun z hz => starts z (List.mem_cons_of_mem x hz))
      (fun z hz => reads z (List.mem_cons_of_mem x hz)) (n := n)
      (by rw [List.length_cons] at hn; omega) (result x :: taken)
      fun z hz => first z (List.mem_cons_of_mem x hz)
    rw [List.reverse_cons, List.append_assoc, List.singleton_append, ← List.map_cons] at others
    refine begins.bind ?_
    rw [if_neg ne]
    rw [further, List.flatMap_cons, ← further, List.cons_append, List.cons_append,
      List.append_assoc] at read ⊢
    refine read.bind ((next_scans comma _).bind ?_)
    rw [if_neg apart]
    exact (mark_scans comma _).bind others

/-- The parts between the marks of a list or an object. -/
def joined (text : β → List Char) : List β → List Char
  | [] => []
  | x :: xs => text x ++ further text xs

theorem length_le_further (text : β → List Char) (xs : List β) :
    xs.length ≤ (further text xs).length := by
  induction xs with
  | nil => exact Nat.le_refl _
  | cons x xs ih =>
    rw [further, List.flatMap_cons, ← further]
    simp only [List.length_append, List.length_cons]
    omega

theorem partsAfter_scans (hc : closing ∈ [']', '}']) {xs : List β}
    (starts : ∀ x ∈ xs, ∃ c cs, text x = c :: cs ∧ IsInk c ∧ c ≠ closing)
    (reads : ∀ x ∈ xs, ∀ rest, Follows rest → Scans part (text x ++ rest) (result x) rest)
    (opening : Char) (rest : List Char) :
    Scans (partsAfter closing part) (opening :: (joined text xs ++ closing :: rest))
      (xs.map result) rest := by
  refine (Scans.modify (List.drop 1) _).bind ((Scans.get _).bind ?_)
  rw [List.drop_succ_cons, List.drop_zero]
  cases xs with
  | nil =>
    have ink : IsInk closing := by fin_cases hc <;> decide
    refine (next_scans ink rest).bind ?_
    rw [if_pos rfl]
    exact (mark_scans ink rest).bind (.pure _ _)
  | cons x xs =>
    have := length_le_further text xs
    rw [joined, List.append_assoc]
    refine parts_scans hc starts reads ?_ [] rest
    obtain ⟨c, cs, e, -⟩ := starts x List.mem_cons_self
    rw [e]
    simp only [List.length_append, List.length_cons]
    omega

end Parts

/-! ## Values -/

theorem Opens.isInk {c : Char} (h : Opens c) : IsInk c := by
  rcases h with h | h
  · have digit : c.toNat ∈ List.range' 48 10 := by
      have bounds := isDigit_iff.1 h
      simp only [List.mem_range'_1]
      omega
    have ink : ∀ n ∈ List.range' 48 10, IsInk (Char.ofNat n) := by decide
    rw [← Char.ofNat_toNat c]
    exact ink _ digit
  · fin_cases h <;> decide

theorem stringAfter_scans (s : String) (rest : List Char) :
    Scans (stringAfter '"') (stringChars s ++ rest) (.ofText s) rest := by
  rw [stringChars, List.append_assoc, List.cons_append]
  refine (Scans.modify (List.drop 1) _).bind ((Scans.get _).bind ?_)
  refine (Scans.lift (string?_escapes s rest) _).bind ?_
  exact (Scans.set _ _).bind (.pure _ _)

theorem memberName_scans (s : String) (rest : List Char) :
    Scans memberName (stringChars s ++ ':' :: rest) (.ofText s) rest := by
  have next := next_scans (c := '"') (by decide)
    (s.toList.flatMap escapeChar ++ ['"'] ++ ':' :: rest)
  rw [← List.cons_append, ← List.cons_append, ← stringChars] at next
  refine next.bind ?_
  exact (stringAfter_scans s _).bind ((mark_scans (by decide) rest).bind (.pure _ _))

/-- The text of a member without white space. -/
def memberText (depth : Nat) (m : String × Value) : List Char :=
  stringChars m.1 ++ ':' :: m.2.chars .compact depth

theorem itemsChars_eq (depth : Nat) (vs : List Value) :
    Value.itemsChars .compact depth vs = further (Value.chars .compact depth) vs := by
  induction vs with
  | nil => rfl
  | cons v vs ih =>
    rw [Value.itemsChars, ih, further, further, List.flatMap_cons]
    rfl

theorem membersChars_eq (depth : Nat) (ms : List (String × Value)) :
    Value.membersChars .compact depth ms = further (memberText depth) ms := by
  induction ms with
  | nil => rfl
  | cons m ms ih =>
    obtain ⟨name, v⟩ := m
    rw [Value.membersChars, ih, further, further, List.flatMap_cons, memberText]
    simp [Layout.compact]

theorem chars_list (depth : Nat) (vs : List Value) : (Value.list vs).chars .compact depth =
    '[' :: (joined (Value.chars .compact (depth + 1)) vs ++ [']']) := by
  cases vs with
  | nil => rfl
  | cons v vs =>
    rw [Value.chars, itemsChars_eq, joined]
    simp [Layout.compact]

theorem chars_object (depth : Nat) (ms : List (String × Value)) :
    (Value.object ms).chars .compact depth =
      '\x7b' :: (joined (memberText (depth + 1)) ms ++ ['}']) := by
  cases ms with
  | nil => rfl
  | cons m ms =>
    obtain ⟨name, v⟩ := m
    rw [Value.chars, membersChars_eq, joined, memberText]
    simp [Layout.compact]

/-- A value that begins with no mark and no quote is a scalar. -/
theorem scalar_scans {c : Char} {cs rest : List Char} {v : Relaxed} (opens : Opens c)
    (hc : c ∉ ['[', '\x7b', '"']) (h : scalar? (c :: cs) = some (v, rest)) (depth : Nat) :
    Scans (value depth) (c :: cs) v rest := by
  have apart : c ≠ '\'' := by
    rintro rfl
    revert opens
    decide
  simp only [List.mem_cons, List.not_mem_nil, or_false, not_or] at hc
  unfold value
  refine (next_scans (Opens.isInk opens) cs).bind ?_
  rw [if_neg hc.1, if_neg hc.2.1, if_neg (by simp [hc.2.2, apart])]
  exact (Scans.get _).bind ((Scans.lift h _).bind ((Scans.set _ _).bind (.pure _ _)))

theorem numeral_scans {n : Numeral} (h : n.WellFormed) {rest : List Char} (hr : Follows rest)
    (depth : Nat) : Scans (value depth) (n.chars ++ rest) (.number n.chars) rest := by
  have read := scalar?_numeral h hr
  obtain ⟨c, cs, e, hc⟩ := h.exists_cons (powerChars n.power)
  rw [← n.chars_eq_front] at e
  rw [e, List.cons_append] at read ⊢
  refine scalar_scans (opens_of_sign hc) ?_ read depth
  intro hm
  rcases hc with rfl | hc
  · exact absurd hm (by decide)
  · fin_cases hm <;> exact absurd hc (by decide)

theorem word_scans {c : Char} {cs rest : List Char} {v : Relaxed} (opens : Opens c)
    (letters : (c :: cs).all Char.isAlphanum = true) (h : constant? (c :: cs) = some v)
    (hr : Follows rest) (depth : Nat) : Scans (value depth) (c :: cs ++ rest) v rest := by
  refine scalar_scans opens (fun hm => ?_) (scalar?_word letters h hr) depth
  have := List.all_eq_true.1 letters c List.mem_cons_self
  fin_cases hm <;> exact absurd this (by decide)

/-- **A value that is written without white space is read as what it says.** -/
theorem value_scans {depth : Nat} {v : Value} (h : v.Fits depth) (level : Nat) {rest : List Char}
    (hr : Follows rest) :
    Scans (value depth) (v.chars .compact level ++ rest) (ofValue v) rest := by
  induction h generalizing level rest with
  | null depth => exact word_scans (by decide) rfl rfl hr depth
  | boolean depth b =>
    cases b with
    | true => exact word_scans (by decide) rfl rfl hr depth
    | false => exact word_scans (by decide) rfl rfl hr depth
  | integer depth n =>
    rw [Value.chars, ofValue, ← Numeral.chars_ofInt]
    exact numeral_scans (Numeral.wellFormed_ofInt n) hr depth
  | floating depth x =>
    rw [Value.chars, ofValue]
    by_cases hx : x.isFinite = true
    · obtain ⟨n, hn, e, -⟩ := exists_numeral_of_isFinite hx
      rw [floatingChars, if_pos hx] at e
      rw [floatingChars, if_pos hx, if_pos hx, ← e]
      exact numeral_scans hn hr depth
    · rw [floatingChars, if_neg hx, if_neg hx]
      exact word_scans (by decide) rfl rfl hr depth
  | text depth s =>
    have begins := next_scans (c := '"') (by decide) (s.toList.flatMap escapeChar ++ ['"'] ++ rest)
    rw [← List.cons_append, ← List.cons_append, ← stringChars] at begins
    rw [Value.chars, ofValue]
    unfold value
    refine begins.bind ?_
    rw [if_neg (by decide), if_neg (by decide), if_pos (by decide)]
    exact (stringAfter_scans s rest).bind (.pure _ _)
  | @list depth vs _ ih =>
    have items : Scans (partsAfter ']' (value depth)) ('[' ::
        (joined (Value.chars .compact (level + 1)) vs ++ ']' :: rest)) (vs.map ofValue) rest := by
      refine partsAfter_scans (by decide) (fun v _ => ?_) (fun v hv rest hr => ?_) '[' rest
      · obtain ⟨c, cs, e, hc⟩ := v.exists_cons_chars .compact (level + 1)
        exact ⟨c, cs, e, Opens.isInk hc, hc.ne_mark (by decide)⟩
      · exact ih v hv (level + 1) hr
    rw [chars_list, ofValue, ofItems_eq_map, List.cons_append, List.append_assoc]
    unfold value
    refine (next_scans (by decide) _).bind ?_
    rw [if_pos rfl]
    exact items.bind (.pure _ _)
  | @object depth ms _ ih =>
    have members : Scans (partsAfter '}' do
          let name ← memberName
          return (name, ← value depth))
        ('\x7b' :: (joined (memberText (level + 1)) ms ++ '}' :: rest))
        (ms.map fun m => (Spelled.ofText m.1, ofValue m.2)) rest := by
      refine partsAfter_scans (by decide) (fun m _ => ⟨'"', _, rfl, by decide, by decide⟩)
        (fun m hm rest hr => ?_) '\x7b' rest
      show Scans _ (stringChars m.1 ++ ':' :: m.2.chars .compact (level + 1) ++ rest) _ rest
      rw [List.append_assoc, List.cons_append]
      exact (memberName_scans m.1 _).bind ((ih m hm (level + 1) hr).bind (.pure _ _))
    rw [chars_object, ofValue, ofMembers_eq_map, List.cons_append, List.append_assoc]
    unfold value
    refine (next_scans (by decide) _).bind ?_
    rw [if_neg (by decide), if_pos rfl]
    exact members.bind (.pure _ _)

/-- A whole text that holds one value. -/
theorem read?_chars {depth : Nat} {v : Value} (h : v.Fits depth) :
    read? depth (v.chars .compact 0) = some (ofValue v) := by
  have run := value_scans h 0 follows_nil
  rw [List.append_nil] at run
  have none : skipGaps [] = [] := by rw [skipGaps]
  unfold Scans at run
  rw [read?, run]
  show (if (skipGaps []).isEmpty then _ else _) = _
  rw [none]
  rfl

theorem eq_comma_or_of_mem_joined {β : Type} {text : β → List Char} {xs : List β} {c : Char}
    (h : c ∈ joined text xs) : c = ',' ∨ ∃ x ∈ xs, c ∈ text x := by
  cases xs with
  | nil => exact absurd h List.not_mem_nil
  | cons x xs =>
    rcases List.mem_append.1 h with h | h
    · exact .inr ⟨x, List.mem_cons_self, h⟩
    · obtain ⟨y, hy, h⟩ := List.mem_flatMap.1 h
      rcases List.mem_cons.1 h with rfl | h
      · exact .inl rfl
      · exact .inr ⟨y, List.mem_cons_of_mem x hy, h⟩

end Relaxed

/-! ## Controls are not written -/

theorem le_toNat_of_isDigit {c : Char} (h : c.isDigit = true) : 0x20 ≤ c.toNat :=
  Nat.le_trans (by decide) (isDigit_iff.1 h).1

theorem Numeral.WellFormed.le_toNat {n : Numeral} (h : n.WellFormed) :
    ∀ c ∈ n.chars, 0x20 ≤ c.toNat := by
  intro c hc
  rw [n.chars_eq_front] at hc
  rcases h.of_mem (spellsPower_powerChars n.power) hc with hd | hm
  · exact le_toNat_of_isDigit hd
  · fin_cases hm <;> decide

theorem le_toNat_of_mem_escapeChar {c d : Char} (h : d ∈ escapeChar c) : 0x20 ≤ d.toNat := by
  have digit : ∀ k < 16, 0x20 ≤ (Nat.digitChar k).toNat := by decide
  rcases escapeChar_cases c with hm | ⟨hc, e⟩ | ⟨-, -, hc, e⟩
  · revert h
    fin_cases hm <;> (intro h; fin_cases h <;> decide)
  · have high := digit (c.toNat / 16) (by omega)
    have low := digit (c.toNat % 16) (by omega)
    rw [e] at h
    simp only [List.mem_cons, List.not_mem_nil, or_false] at h
    rcases h with rfl | rfl | rfl | rfl | rfl | rfl
    · decide
    · decide
    · decide
    · decide
    · exact high
    · exact low
  · rw [e] at h
    rw [List.mem_singleton.1 h]
    omega

theorem le_toNat_of_mem_stringChars {s : String} {c : Char} (h : c ∈ stringChars s) :
    0x20 ≤ c.toNat := by
  rw [stringChars, List.cons_append, List.mem_cons, List.mem_append, List.mem_singleton] at h
  rcases h with rfl | h | rfl
  · decide
  · obtain ⟨d, -, h⟩ := List.mem_flatMap.1 h
    exact le_toNat_of_mem_escapeChar h
  · decide

/-- **No control is written without white space.** -/
theorem Value.le_toNat_of_mem_chars {depth : Nat} {v : Value} (h : v.Fits depth) (level : Nat) :
    ∀ c ∈ v.chars .compact level, 0x20 ≤ c.toNat := by
  have word : ∀ w : List Char, (w.all fun c => 0x20 ≤ c.toNat) = true →
      ∀ c ∈ w, 0x20 ≤ c.toNat := fun w h c hc => of_decide_eq_true (List.all_eq_true.1 h c hc)
  have null := word ['n', 'u', 'l', 'l'] (by decide)
  induction h generalizing level with
  | null depth => exact null
  | boolean depth b =>
    cases b with
    | true => exact word ['t', 'r', 'u', 'e'] (by decide)
    | false => exact word ['f', 'a', 'l', 's', 'e'] (by decide)
  | integer depth n =>
    rw [chars, ← Numeral.chars_ofInt]
    exact (Numeral.wellFormed_ofInt n).le_toNat
  | floating depth x =>
    rw [chars]
    by_cases hx : x.isFinite = true
    · obtain ⟨n, hn, e, -⟩ := exists_numeral_of_isFinite hx
      rw [← e]
      exact hn.le_toNat
    · rw [floatingChars, if_neg hx]
      exact null
  | text depth s => exact fun c => le_toNat_of_mem_stringChars
  | list _ ih =>
    intro c hc
    rw [Relaxed.chars_list, List.mem_cons, List.mem_append, List.mem_singleton] at hc
    rcases hc with rfl | hc | rfl
    · decide
    · rcases Relaxed.eq_comma_or_of_mem_joined hc with rfl | ⟨v, hv, hc⟩
      · decide
      · exact ih v hv _ c hc
    · decide
  | object _ ih =>
    intro c hc
    rw [Relaxed.chars_object, List.mem_cons, List.mem_append, List.mem_singleton] at hc
    rcases hc with rfl | hc | rfl
    · decide
    · rcases Relaxed.eq_comma_or_of_mem_joined hc with rfl | ⟨m, hm, hc⟩
      · decide
      · rw [Relaxed.memberText, List.mem_append, List.mem_cons] at hc
        rcases hc with hc | rfl | hc
        · exact le_toNat_of_mem_stringChars hc
        · decide
        · exact ih m hm _ c hc
    · decide

end MemoTransfer.Json
