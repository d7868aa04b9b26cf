import Mathlib.Algebra.Group.Nat.Even
import MemoTransfer.Query.Term

/-!
# Filters in parts

White space outside quotes ends a token, and nothing of what stands before it matters behind it. So
the tokens of two texts with white space between them are those of the first and then those of the
second (`tokens?_append`), and the terms are as well (`parse_append_iff`), if the first text closes
its quotes: that is, if it has an even number of them (`isSome_tokens?_iff`). A token has
characters, and no quote is among them (`proper_of_mem_tokens?`).
-/

namespace MemoTransfer.Query

open MemoTransfer.Text

variable {pending cs before after : List Char} {inQuote quoted : Bool} {c : Char}
  {ts : List Token}

/-! ## One character -/

theorem ne_quote_of_isBlank (h : isBlank c = true) : c ≠ '"' := by
  rintro rfl
  exact absurd h (by decide)

theorem tokensFrom_opening (pending : List Char) (quoted : Bool) (cs : List Char) :
    tokensFrom pending false quoted ('"' :: cs) =
      tokensFrom pending true (quoted || pending.isEmpty) cs := rfl

theorem tokensFrom_closing (pending : List Char) (quoted : Bool) (cs : List Char) :
    tokensFrom pending true quoted ('"' :: cs) = tokensFrom pending false quoted cs := rfl

theorem tokensFrom_blank (h : isBlank c = true) (pending : List Char) (quoted : Bool)
    (cs : List Char) : tokensFrom pending false quoted (c :: cs) =
      (tokens? cs).map (Token.ofPending pending quoted ++ ·) := by
  rw [tokensFrom, if_neg (ne_quote_of_isBlank h), h]
  rfl

/-- A character that is no quote is added to the token, unless it ends it. -/
theorem tokensFrom_solid (other : c ≠ '"') (h : inQuote = true ∨ isBlank c = false)
    (pending : List Char) (quoted : Bool) (cs : List Char) :
    tokensFrom pending inQuote quoted (c :: cs) = tokensFrom (c :: pending) inQuote quoted cs := by
  rw [tokensFrom, if_neg other, if_neg]
  rcases h with rfl | h
  · exact Bool.false_ne_true
  · simp [h]

/-- A character that is no quote either ends the token or is added to it. -/
theorem ends_or_joins (inQuote : Bool) (c : Char) :
    (inQuote = false ∧ isBlank c = true) ∨ inQuote = true ∨ isBlank c = false := by
  cases inQuote <;> cases isBlank c <;> decide

/-! ## A run of characters -/

/-- A run of characters without quotes is added to the token, unless some of them end it. -/
theorem tokensFrom_append (unquoted : '"' ∉ cs) (h : inQuote = true ∨ ∀ c ∈ cs, isBlank c = false)
    (pending : List Char) (quoted : Bool) (after : List Char) :
    tokensFrom pending inQuote quoted (cs ++ after) =
      tokensFrom (cs.reverse ++ pending) inQuote quoted after := by
  induction cs generalizing pending with
  | nil => rfl
  | cons c cs ih =>
    rw [List.mem_cons, not_or] at unquoted
    rw [List.forall_mem_cons] at h
    rw [List.cons_append, tokensFrom_solid (Ne.symm unquoted.1) (h.imp_right And.left),
      ih unquoted.2 (h.imp_right And.right), List.reverse_cons, List.append_assoc]
    rfl

/-- A text of white space has no tokens. -/
theorem tokens?_of_blank (blank : ∀ c ∈ cs, isBlank c = true) : tokens? cs = some [] := by
  induction cs with
  | nil => rfl
  | cons c cs ih =>
    rw [List.forall_mem_cons] at blank
    rw [tokens?, tokensFrom_blank blank.1, ih blank.2]
    rfl

/-- No character of the text is white space or a quote. -/
def IsSolid (cs : List Char) : Prop := ∀ c ∈ cs, isBlank c = false ∧ c ≠ '"'

instance : DecidablePred IsSolid := fun cs => List.decidableBAll _ cs

namespace IsSolid

theorem cons (h : isBlank c = false ∧ c ≠ '"') (hcs : IsSolid cs) : IsSolid (c :: cs) :=
  List.forall_mem_cons.2 ⟨h, hcs⟩

theorem append (h : IsSolid before) (h' : IsSolid after) : IsSolid (before ++ after) :=
  List.forall_mem_append.2 ⟨h, h'⟩

theorem unquoted (h : IsSolid cs) : '"' ∉ cs := fun quote => (h _ quote).2 rfl

theorem solid (h : IsSolid cs) : ∀ c ∈ cs, isBlank c = false := fun c hc => (h c hc).1

/-- A text without white space and quotes is one token. -/
theorem tokens?_eq (h : IsSolid cs) (filled : cs ≠ []) : tokens? cs = some [⟨cs, false⟩] := by
  have whole : tokensFrom [] false false (cs ++ []) = _ :=
    tokensFrom_append h.unquoted (.inr h.solid) [] false []
  rw [List.append_nil, List.append_nil] at whole
  simp [tokens?, whole, tokensFrom, Token.ofPending, filled]

end IsSolid

/-! ## Two parts -/

theorem tokensFrom_append_blank (blank : isBlank c = true)
    (h : tokensFrom pending inQuote quoted before = some ts) (after : List Char) :
    tokensFrom pending inQuote quoted (before ++ c :: after) =
      (tokens? after).map (ts ++ ·) := by
  induction before generalizing pending inQuote quoted ts with
  | nil =>
    cases inQuote with
    | true => cases h
    | false =>
      cases h
      exact tokensFrom_blank blank _ _ _
  | cons d before ih =>
    rw [List.cons_append]
    by_cases quote : d = '"'
    · subst quote
      cases inQuote
      all_goals exact ih h
    · rcases ends_or_joins inQuote d with ⟨rfl, ends⟩ | joins
      · rw [tokensFrom_blank ends, Option.map_eq_some_iff] at h
        obtain ⟨later, found, rfl⟩ := h
        rw [tokensFrom_blank ends, tokens?, ih found, Option.map_map]
        simp only [Function.comp_def, List.append_assoc]
      · rw [tokensFrom_solid quote joins] at h ⊢
        exact ih h

/-- **The tokens of two texts with white space between them.** -/
theorem tokens?_append (blank : isBlank c = true) (h : tokens? before = some ts)
    (after : List Char) :
    tokens? (before ++ c :: after) = (tokens? after).map (ts ++ ·) :=
  tokensFrom_append_blank blank h after

/-! ## Quotes -/

/-- Every quote opens or closes, so the last one closes if there is an even number of them. -/
theorem isSome_tokensFrom_iff (pending : List Char) (inQuote quoted : Bool) (cs : List Char) :
    (tokensFrom pending inQuote quoted cs).isSome = true ↔
      Even (cs.count '"' + inQuote.toNat) := by
  induction cs generalizing pending inQuote quoted with
  | nil => cases inQuote <;> simp [tokensFrom]
  | cons c cs ih =>
    by_cases quote : c = '"'
    · subst quote
      rw [List.count_cons_self]
      cases inQuote with
      | false => rw [tokensFrom_opening, ih, Bool.toNat_true, Bool.toNat_false, Nat.add_zero]
      | true =>
        rw [tokensFrom_closing, ih, Bool.toNat_true, Bool.toNat_false, Nat.add_zero, Nat.even_add_one,
          Nat.even_add_one, not_not]
    · rw [List.count_cons_of_ne quote]
      rcases ends_or_joins inQuote c with ⟨rfl, blank⟩ | joins
      · rw [tokensFrom_blank blank, Option.isSome_map, tokens?, ih]
      · rw [tokensFrom_solid quote joins, ih]

theorem isSome_tokens?_iff : (tokens? cs).isSome = true ↔ Even (cs.count '"') :=
  isSome_tokensFrom_iff [] false false cs

/-! ## What a token is -/

/-- The text of a token is not empty and holds no quote. -/
def Token.IsProper (t : Token) : Prop := t.text ≠ [] ∧ '"' ∉ t.text

theorem proper_of_mem_ofPending {t : Token} (unquoted : '"' ∉ pending)
    (h : t ∈ Token.ofPending pending quoted) : t.IsProper := by
  unfold Token.ofPending at h
  split at h
  case isTrue => cases h
  case isFalse filled =>
    obtain rfl := List.mem_singleton.1 h
    exact ⟨by simpa using filled, by simpa using unquoted⟩

theorem proper_of_mem_tokensFrom (unquoted : '"' ∉ pending)
    (h : tokensFrom pending inQuote quoted cs = some ts) : ∀ t ∈ ts, t.IsProper := by
  induction cs generalizing pending inQuote quoted ts with
  | nil =>
    unfold tokensFrom at h
    split at h
    case isTrue => cases h
    case isFalse =>
      cases h
      exact fun t => proper_of_mem_ofPending unquoted
  | cons c cs ih =>
    by_cases quote : c = '"'
    · subst quote
      cases inQuote
      all_goals exact ih unquoted h
    · rcases ends_or_joins inQuote c with ⟨rfl, blank⟩ | joins
      · rw [tokensFrom_blank blank, Option.map_eq_some_iff] at h
        obtain ⟨later, found, rfl⟩ := h
        exact List.forall_mem_append.2
          ⟨fun t => proper_of_mem_ofPending unquoted, ih List.not_mem_nil found⟩
      · rw [tokensFrom_solid quote joins] at h
        exact ih (List.not_mem_cons_of_ne_of_not_mem (Ne.symm quote) unquoted) h

/-- **What the tokens of a text are.** -/
theorem proper_of_mem_tokens? (h : tokens? cs = some ts) : ∀ t ∈ ts, t.IsProper :=
  proper_of_mem_tokensFrom List.not_mem_nil h

/-! ## Terms -/

theorem parse_eq_ok_iff {filter : String} {terms : List Term} :
    parse filter = .ok terms ↔
      ∃ ts, tokens? filter.toList = some ts ∧ ts.mapM Term.ofToken = .ok terms := by
  unfold parse
  cases tokens? filter.toList with
  | none => simp
  | some ts => simp

theorem parseFilter_eq_ok_iff {filter : String} {terms : List Term} :
    parseFilter filter = .ok terms ↔ parse filter = .ok terms := by
  unfold parseFilter
  cases parse filter <;> simp [Except.mapError]

theorem mapM_ofToken_append_iff {before after : List Token} {terms : List Term} :
    (before ++ after).mapM Term.ofToken = .ok terms ↔
      ∃ first second, before.mapM Term.ofToken = .ok first ∧
        after.mapM Term.ofToken = .ok second ∧ terms = first ++ second := by
  rw [List.mapM_append]
  cases before.mapM Term.ofToken <;> cases after.mapM Term.ofToken <;>
    simp [bind, Except.bind, pure, Except.pure, eq_comm]

/-- **The terms of two texts with white space between them.** They are those of the first and then
those of the second, if the quotes of the first are closed. -/
theorem parse_append_iff {a b : String} {terms : List Term} (even : Even (a.toList.count '"'))
    (blank : isBlank c = true) :
    parse (a ++ String.singleton c ++ b) = .ok terms ↔
      ∃ first second, parse a = .ok first ∧ parse b = .ok second ∧ terms = first ++ second := by
  obtain ⟨ts, found⟩ := Option.isSome_iff_exists.1 (isSome_tokens?_iff.2 even)
  have whole : (a ++ String.singleton c ++ b).toList = a.toList ++ c :: b.toList := by
    rw [String.toList_append, String.toList_append, String.toList_singleton, List.append_assoc]
    rfl
  rw [parse_eq_ok_iff, whole, tokens?_append blank found]
  constructor
  · intro ⟨all, split, h⟩
    obtain ⟨us, later, rfl⟩ := Option.map_eq_some_iff.1 split
    obtain ⟨first, second, h, h', e⟩ := mapM_ofToken_append_iff.1 h
    exact ⟨first, second, parse_eq_ok_iff.2 ⟨ts, found, h⟩, parse_eq_ok_iff.2 ⟨us, later, h'⟩, e⟩
  · intro ⟨first, second, h, h', e⟩
    obtain ⟨_, again, h⟩ := parse_eq_ok_iff.1 h
    obtain rfl := Option.some.inj (found.symm.trans again)
    obtain ⟨us, later, h'⟩ := parse_eq_ok_iff.1 h'
    exact ⟨ts ++ us, Option.map_eq_some_iff.2 ⟨us, later, rfl⟩,
      mapM_ofToken_append_iff.2 ⟨first, second, h, h', e⟩⟩

/-! ## Many words -/

/-- So many words. -/
def words (n : Nat) : String := String.ofList (List.replicate n ['x', ' ']).flatten

theorem even_words (n : Nat) : Even ((words n).toList.count '"') := by
  have unquoted : (words n).toList.count '"' = 0 := by
    rw [words, String.toList_ofList, List.count_eq_zero]
    intro quote
    obtain ⟨word, among, inside⟩ := List.mem_flatten.1 quote
    rw [List.eq_of_mem_replicate among] at inside
    exact absurd inside (by decide)
  rw [unquoted]
  exact Even.zero

theorem parse_words (n : Nat) : parse (words n) = .ok (List.replicate n (.content "x")) := by
  induction n with
  | zero => rfl
  | succ n ih =>
    have one : parse "x" = .ok [.content "x"] := by rfl
    have even : Even ("x".toList.count '"') := by decide
    have text : words (n + 1) = "x" ++ String.singleton ' ' ++ words n := by
      apply String.toList_injective
      simp [words, List.replicate_succ]
    rw [text, parse_append_iff even (by decide)]
    exact ⟨_, _, one, ih, rfl⟩

end MemoTransfer.Query
