import MemoTransfer.Proofs.Number.Digits
import MemoTransfer.Proofs.Query.Parts
import MemoTransfer.Proofs.Reading

/-!
# Writing a filter

A term is written as its key with a value, the name of a tag and a text to look for between quotes
(`Term.chars`). What is written is one token (`tokens?_chars`), from which the term is read again if
it is printable (`ofToken_token`): a name or a text must not be empty nor hold a quote, and a name
must not begin with a number sign. Terms with white space between them are `Writing`. Every writing
of printable terms is parsed as these terms, and nothing but printable terms is ever parsed
(`parseFilter_writing`).
-/

namespace MemoTransfer.Query

open MemoTransfer.Number MemoTransfer.Text

variable {t : Term} {ts : List Term} {before cs rest : List Char}

/-! ## The written form of a term -/

/-- A text between quotes. -/
def quote (cs : List Char) : List Char := '"' :: (cs ++ ['"'])

namespace Term

/-- The written form of a term. -/
def chars : Term → List Char
  | tag name => "tag".toList ++ ':' :: quote name.toList
  | visibility value => "visibility".toList ++ ':' :: value.name.toList
  | pinned value => "pinned".toList ++ ':' :: (if value then "true" else "false").toList
  | createdAfter seconds => "created_after".toList ++ ':' :: intDigits seconds
  | createdBefore seconds => "created_before".toList ++ ':' :: intDigits seconds
  | content text => quote text.toList

/-- The token that a written term is. -/
def token : Term → Token
  | tag name => ⟨"tag".toList ++ ':' :: name.toList, false⟩
  | content text => ⟨text.toList, true⟩
  | t => ⟨t.chars, false⟩

/-- The terms that can be written: a name and a text hold no quote and are not empty, a name begins
with no number sign, and seconds are numbers of 64 bits. -/
def IsPrintable : Term → Prop
  | tag name => name ≠ "" ∧ name.toList.head? ≠ some '#' ∧ '"' ∉ name.toList
  | content text => text ≠ "" ∧ '"' ∉ text.toList
  | createdAfter seconds | createdBefore seconds => -2 ^ 63 ≤ seconds ∧ seconds < 2 ^ 63
  | visibility _ | pinned _ => True

instance : DecidablePred IsPrintable := fun t =>
  match t with
  | tag _ | content _ | createdAfter _ | createdBefore _ => inferInstanceAs (Decidable (_ ∧ _))
  | visibility _ | pinned _ => inferInstanceAs (Decidable True)

end Term

/-! ## One term is one token -/

/-- A run and then a quoted text, at the end of a text, are one token. -/
theorem tokens?_append_quote (solid : IsSolid before) (filled : cs ≠ []) (unquoted : '"' ∉ cs) :
    tokens? (before ++ quote cs) = some [⟨before ++ cs, before.isEmpty⟩] := by
  have opened : tokensFrom [] false false (before ++ quote cs) = _ :=
    tokensFrom_append solid.unquoted (.inr solid.solid) [] false (quote cs)
  have closed : tokensFrom before.reverse true before.isEmpty (cs ++ ['"']) = _ :=
    tokensFrom_append unquoted (.inl rfl) before.reverse before.isEmpty ['"']
  rw [tokens?, opened, List.append_nil, quote, tokensFrom_opening, Bool.false_or,
    List.isEmpty_reverse, closed, tokensFrom_closing]
  simp [tokensFrom, Token.ofPending, filled]

theorem isSolid_intDigits (n : Int) : IsSolid (intDigits n) := by
  intro c hc
  rcases mem_intDigits hc with rfl | digit
  · decide
  · refine ⟨isBlank_of_isDigit digit, ?_⟩
    rintro rfl
    exact absurd digit (by decide)

/-- A key that is no text to read, with a value. -/
theorem tokens?_keyed {key : String} (hk : IsSolid key.toList) (hcs : IsSolid cs) :
    tokens? (key.toList ++ ':' :: cs) = some [⟨key.toList ++ ':' :: cs, false⟩] :=
  (hk.append (hcs.cons (by decide))).tokens?_eq (by simp)

/-- A key that is no text to read, with a value between quotes. -/
theorem tokens?_keyed_quote {key : String} (hk : IsSolid key.toList) (filled : cs ≠ [])
    (unquoted : '"' ∉ cs) :
    tokens? (key.toList ++ ':' :: quote cs) = some [⟨key.toList ++ ':' :: cs, false⟩] := by
  have solid : IsSolid (key.toList ++ [':']) := hk.append (by decide)
  have filledKey : (key.toList ++ [':']).isEmpty = false := by simp
  rw [List.append_cons, tokens?_append_quote solid filled unquoted, filledKey,
    List.append_cons _ ':' cs]

/-- **A written term is one token.** -/
theorem tokens?_chars (h : t.IsPrintable) : tokens? t.chars = some [t.token] := by
  cases t with
  | tag name =>
    obtain ⟨filled, -, unquoted⟩ := h
    exact tokens?_keyed_quote (by decide) (by simpa using filled) unquoted
  | visibility value => exact tokens?_keyed (by decide) (by cases value <;> decide)
  | pinned value => exact tokens?_keyed (by decide) (by cases value <;> decide)
  | createdAfter seconds => exact tokens?_keyed (by decide) (isSolid_intDigits seconds)
  | createdBefore seconds => exact tokens?_keyed (by decide) (isSolid_intDigits seconds)
  | content text =>
    have solid : IsSolid [] := by decide
    exact tokens?_append_quote solid (by simpa using h.1) h.2

/-! ## The term of a written token -/

theorem splitColon_append {key : List Char} (h : ':' ∉ key) (value : List Char) :
    splitColon (key ++ ':' :: value) = some (key, value) := by
  induction key with
  | nil => rfl
  | cons c key ih =>
    rw [List.mem_cons, not_or] at h
    rw [List.cons_append, splitColon, if_neg (Ne.symm h.1), ih h.2]
    rfl

theorem eq_of_splitColon {key value : List Char} (h : splitColon cs = some (key, value)) :
    cs = key ++ ':' :: value := by
  induction cs generalizing key with
  | nil => cases h
  | cons c cs ih =>
    unfold splitColon at h
    split at h
    case isTrue colon =>
      cases h
      rw [colon]
      rfl
    case isFalse =>
      obtain ⟨⟨key, value⟩, found, e⟩ := Option.map_eq_some_iff.1 h
      cases e
      rw [ih found]
      rfl

theorem ofToken_keyed {key : String} {value : List Char} {term : Except Fault Term}
    (h : ':' ∉ key.toList) (known : Term.ofKey? key value = some term) :
    Term.ofToken ⟨key.toList ++ ':' :: value, false⟩ = term := by
  simp [Term.ofToken, splitColon_append h, known]

theorem readSeconds_intDigits {seconds : Int} (h : -2 ^ 63 ≤ seconds ∧ seconds < 2 ^ 63) :
    readSeconds (intDigits seconds) = .ok seconds := by
  rw [readSeconds, readInt64?_intDigits h]

/-- **The term of a written token.** -/
theorem ofToken_token (h : t.IsPrintable) : Term.ofToken t.token = .ok t := by
  cases t with
  | tag name =>
    obtain ⟨filled, noSign, -⟩ := h
    have same : name.toList.dropWhile (· = '#') = name.toList := by
      cases e : name.toList with
      | nil => rfl
      | cons c cs => exact List.dropWhile_cons_of_neg (by simpa [e] using noSign)
    exact ofToken_keyed (by decide) (by simp [Term.ofKey?, same, filled])
  | visibility value =>
    have upperCase : upper value.name.toList = value.name.toList := by
      cases value <;> decide +kernel
    exact ofToken_keyed (by decide) (by simp [Term.ofKey?, upperCase, Visibility.ofName?_name])
  | pinned value => exact ofToken_keyed (by decide) (by cases value <;> simp [Term.ofKey?])
  | createdAfter seconds =>
    exact ofToken_keyed (by decide) (by simp [Term.ofKey?, readSeconds_intDigits h, Except.map])
  | createdBefore seconds =>
    exact ofToken_keyed (by decide) (by simp [Term.ofKey?, readSeconds_intDigits h, Except.map])
  | content text => simp [Term.ofToken, Term.token]

/-! ## Terms that are parsed -/

theorem isPrintable_of_readSeconds {value : List Char} (make : Int → Term)
    (made : ∀ n : Int, -2 ^ 63 ≤ n ∧ n < 2 ^ 63 → (make n).IsPrintable)
    (h : (readSeconds value).map make = .ok t) : t.IsPrintable := by
  unfold readSeconds at h
  split at h
  case h_1 n found =>
    cases h
    exact made n (inRange_of_readInt64? found)
  case h_2 => cases h

theorem isPrintable_of_ofKey? {key : String} {value : List Char} (unquoted : '"' ∉ value)
    (h : Term.ofKey? key value = some (.ok t)) : t.IsPrintable := by
  unfold Term.ofKey? at h
  -- the five keys in the order of the definition, and any other word
  split at h
  case h_1 =>
    dsimp only at h
    split at h
    case isTrue => cases h
    case isFalse filled =>
      cases h
      refine ⟨by simpa using filled, ?_, ?_⟩
      · rw [String.toList_ofList]
        intro sign
        have kept := List.head?_dropWhile_not (fun c : Char => decide (c = '#')) value
        rw [sign] at kept
        exact absurd kept (by decide)
      · rw [String.toList_ofList]
        exact fun quote => unquoted ((List.dropWhile_suffix _).mem quote)
  case h_2 =>
    dsimp only at h
    split at h
    all_goals cases h
    trivial
  case h_3 =>
    split at h
    all_goals cases h
    all_goals trivial
  case h_4 => exact isPrintable_of_readSeconds .createdAfter (fun _ => id) (Option.some.inj h)
  case h_5 => exact isPrintable_of_readSeconds .createdBefore (fun _ => id) (Option.some.inj h)
  case h_6 => cases h

/-- **A term that is parsed can be written.** -/
theorem isPrintable_of_ofToken {token : Token} (proper : token.IsProper)
    (h : Term.ofToken token = .ok t) : t.IsPrintable := by
  have phrase : (Term.content (String.ofList token.text)).IsPrintable := by
    simpa [Term.IsPrintable, Token.IsProper] using proper
  unfold Term.ofToken at h
  dsimp only at h
  split at h
  case isTrue =>
    cases h
    exact phrase
  case isFalse =>
    split at h
    case h_1 =>
      cases h
      exact phrase
    case h_2 key value split =>
      split at h
      case h_1 term known =>
        have unquoted : '"' ∉ value := by
          intro quote
          exact proper.2 (eq_of_splitColon split ▸ List.mem_append_right _ (.tail _ quote))
        exact isPrintable_of_ofKey? unquoted (known.trans (congrArg some h))
      case h_2 =>
        split at h
        case isTrue => cases h
        case isFalse =>
          cases h
          exact phrase

theorem isPrintable_of_mapM {tokens : List Token} (proper : ∀ token ∈ tokens, token.IsProper)
    (h : tokens.mapM Term.ofToken = .ok ts) : ∀ t ∈ ts, t.IsPrintable := by
  induction tokens generalizing ts with
  | nil =>
    cases h
    exact fun t => (nomatch ·)
  | cons token tokens ih =>
    rw [List.forall_mem_cons] at proper
    rw [List.mapM_cons] at h
    obtain ⟨t, one, h⟩ := exists_ok_of_bind h
    obtain ⟨ts, others, h⟩ := exists_ok_of_bind h
    cases h
    exact List.forall_mem_cons.2 ⟨isPrintable_of_ofToken proper.1 one, ih proper.2 others⟩

/-! ## Texts of terms -/

/-- The text is empty or goes on with white space. -/
def EndsTerm (rest : List Char) : Prop := ∀ c ∈ rest.head?, isBlank c = true

/-- The text is the written terms with white space between them. -/
inductive Writing : List Term → List Char → Prop
  | nil {gap : List Char} (blank : ∀ c ∈ gap, isBlank c = true) : Writing [] gap
  | cons {gap rest : List Char} {t : Term} {ts : List Term} (blank : ∀ c ∈ gap, isBlank c = true)
      (ends : EndsTerm rest) (others : Writing ts rest) : Writing (t :: ts) (gap ++ t.chars ++ rest)

theorem endsTerm_cons {c : Char} (h : isBlank c = true) (rest : List Char) :
    EndsTerm (c :: rest) := by
  intro d hd
  cases hd
  exact h

/-- White space before a text adds no tokens. -/
theorem tokens?_gap_append {gap : List Char} (blank : ∀ c ∈ gap, isBlank c = true)
    (cs : List Char) : tokens? (gap ++ cs) = tokens? cs := by
  induction gap with
  | nil => rfl
  | cons c gap ih =>
    rw [List.forall_mem_cons] at blank
    rw [List.cons_append, tokens?, tokensFrom_blank blank.1, ih blank.2]
    exact Option.map_id'

/-- A text whose tokens are known, before one that does not go on with it. -/
theorem tokens?_append_of_endsTerm {tokens : List Token} (h : tokens? before = some tokens)
    (ends : EndsTerm rest) : tokens? (before ++ rest) = (tokens? rest).map (tokens ++ ·) := by
  cases rest with
  | nil =>
    rw [List.append_nil, h]
    exact congrArg some (List.append_nil tokens).symm
  | cons c rest =>
    have blank : isBlank c = true := ends c rfl
    have gap : ∀ d ∈ [c], isBlank d = true := by simpa using blank
    rw [tokens?_append blank h, ← tokens?_gap_append gap]
    rfl

theorem Writing.tokens?_eq (h : Writing ts cs) (printable : ∀ t ∈ ts, t.IsPrintable) :
    tokens? cs = some (ts.map Term.token) := by
  induction h with
  | nil blank => exact tokens?_of_blank blank
  | cons blank ends others ih =>
    rw [List.forall_mem_cons] at printable
    rw [List.append_assoc, tokens?_gap_append blank,
      tokens?_append_of_endsTerm (tokens?_chars printable.1) ends, ih printable.2]
    rfl

theorem mapM_ofToken_token (printable : ∀ t ∈ ts, t.IsPrintable) :
    (ts.map Term.token).mapM Term.ofToken = .ok ts := by
  induction ts with
  | nil => rfl
  | cons t ts ih =>
    rw [List.forall_mem_cons] at printable
    rw [List.map_cons, List.mapM_cons, ofToken_token printable.1, ih printable.2]
    rfl

/-- The terms with a space before each of them. -/
theorem writing_spaced (ts : List Term) : Writing ts (ts.flatMap fun t => ' ' :: t.chars) := by
  induction ts with
  | nil => exact .nil nofun
  | cons t ts ih =>
    have gap : ∀ c ∈ [' '], isBlank c = true := List.forall_mem_singleton.2 (by decide)
    refine .cons gap ?_ ih
    cases ts with
    | nil => exact fun c => (nomatch ·)
    | cons t ts => exact endsTerm_cons (by decide) _

/-- **What is parsed is what can be written.** The terms of a filter are printable, every list of
printable terms is that of some filter, and it is that of each writing of it. -/
theorem parseFilter_writing (ts : List Term) :
    ((∃ e, parseFilter e = .ok ts) ↔ ∀ t ∈ ts, t.IsPrintable) ∧
      ∀ e : String, Writing ts e.toList → (∀ t ∈ ts, t.IsPrintable) → parseFilter e = .ok ts := by
  have back (e : String) (writing : Writing ts e.toList) (printable : ∀ t ∈ ts, t.IsPrintable) :
      parseFilter e = .ok ts :=
    parseFilter_eq_ok_iff.2 <| parse_eq_ok_iff.2
      ⟨_, writing.tokens?_eq printable, mapM_ofToken_token printable⟩
  refine ⟨⟨?_, fun printable => ?_⟩, back⟩
  · rintro ⟨e, h⟩
    obtain ⟨tokens, found, h⟩ := parse_eq_ok_iff.1 (parseFilter_eq_ok_iff.1 h)
    exact isPrintable_of_mapM (proper_of_mem_tokens? found) h
  · refine ⟨String.ofList (ts.flatMap fun t => ' ' :: t.chars), back _ ?_ printable⟩
    rw [String.toList_ofList]
    exact writing_spaced ts

/-- A name with white space, a text that looks like a key and a negative number, with white space of
several kinds. -/
theorem parseFilter_writing_keys :
    (∀ t ∈ [Term.tag "a b:#", .content "tag:x", .createdAfter (-5)], t.IsPrintable) ∧
      Writing [.tag "a b:#", .content "tag:x", .createdAfter (-5)]
        "tag:\"a b:#\"\n\"tag:x\" \tcreated_after:-5 ".toList ∧
      parseFilter "tag:\"a b:#\"\n\"tag:x\" \tcreated_after:-5 " =
        .ok [.tag "a b:#", .content "tag:x", .createdAfter (-5)] := by
  have printable : ∀ t ∈ [Term.tag "a b:#", .content "tag:x", .createdAfter (-5)],
      t.IsPrintable := by decide
  have text : "tag:\"a b:#\"\n\"tag:x\" \tcreated_after:-5 ".toList =
      [] ++ (Term.tag "a b:#").chars ++ (['\n'] ++ (Term.content "tag:x").chars ++
        ([' ', '\t'] ++ (Term.createdAfter (-5)).chars ++ [' '])) := by decide +kernel
  have writing : Writing [.tag "a b:#", .content "tag:x", .createdAfter (-5)]
      "tag:\"a b:#\"\n\"tag:x\" \tcreated_after:-5 ".toList := by
    have lineBreak : ∀ c ∈ ['\n'], isBlank c = true := List.forall_mem_singleton.2 (by decide)
    have space : ∀ c ∈ [' '], isBlank c = true := List.forall_mem_singleton.2 (by decide)
    have gap : ∀ c ∈ [' ', '\t'], isBlank c = true :=
      List.forall_mem_cons.2 ⟨by decide, List.forall_mem_singleton.2 (by decide)⟩
    rw [text]
    exact .cons nofun (endsTerm_cons (by decide) _) (.cons lineBreak (endsTerm_cons (by decide) _)
      (.cons gap (endsTerm_cons (by decide) _) (.nil space)))
  exact ⟨printable, writing, (parseFilter_writing _).2 _ writing printable⟩

end MemoTransfer.Query
