import MemoTransfer.Proofs.Transfer.Querying

/-!
# Texts to look for

A content term is a search for a literal text (`MemoRow.satisfies_content`): the case of ASCII
letters does not matter, every other character stands for itself, and none of them is a wildcard.
The database has one reservation. It knows no characters `U+FFFE` and `U+FFFF`, and takes them for
`U+FFFD` in both texts; so a memo may satisfy a term whose text it does not contain
(`Store.satisfies_blurred`).
-/

namespace MemoTransfer

namespace Query.Like

variable {c d : Char}

/-! ## Characters -/

/-- The two characters are the same, or the same ASCII letter in both cases. -/
def SameButCase (c d : Char) : Prop :=
  c = d ∨ (c.isUpper ∧ d.toNat = c.toNat + 32) ∨ (d.isUpper ∧ c.toNat = d.toNat + 32)

/-- The character is the replacement character, or one of the two for which it stands. -/
def IsBlurred (c : Char) : Prop := c = '\ufffd' ∨ c = '\ufffe' ∨ c = '\uffff'

/-- The database takes the two characters for the same one. -/
def CountsAs (c d : Char) : Prop := SameButCase c d ∨ (IsBlurred c ∧ IsBlurred d)

instance (c d : Char) : Decidable (SameButCase c d) := inferInstanceAs (Decidable (_ ∨ _))

instance (c : Char) : Decidable (IsBlurred c) := inferInstanceAs (Decidable (_ ∨ _))

instance (c d : Char) : Decidable (CountsAs c d) := inferInstanceAs (Decidable (_ ∨ _))

/-- A character is an upper case letter by its place between the first letter and the last. -/
theorem isUpper_iff_val : c.isUpper = true ↔ c.val ≥ 'A'.val ∧ c.val ≤ 'Z'.val :=
  decide_eq_true_iff

theorem isUpper_iff : c.isUpper = true ↔ 65 ≤ c.toNat ∧ c.toNat ≤ 90 := by
  simp [isUpper_iff_val, UInt32.le_iff_toNat_le, ← Char.toNat_val]

theorem toNat_toLower (c : Char) :
    c.toLower.toNat = if c.isUpper then c.toNat + 32 else c.toNat := by
  unfold Char.toLower
  split
  · rename_i h
    have letter : c.isUpper = true := isUpper_iff_val.2 h
    have bounds := isUpper_iff.1 letter
    rw [if_pos letter, ← Char.toNat_val, ← Char.toNat_val, UInt32.toNat_add]
    rw [← Char.toNat_val] at bounds
    exact Nat.mod_eq_of_lt (show c.val.toNat + 32 < 2 ^ 32 by omega)
  · rename_i h
    rw [if_neg (mt isUpper_iff_val.1 h)]

theorem sameLetter_iff (c d : Char) : sameLetter c d = true ↔ SameButCase c d := by
  have upper := @isUpper_iff c
  have upper' := @isUpper_iff d
  rw [sameLetter, decide_eq_true_iff, SameButCase, ← Char.toNat_inj, ← Char.toNat_inj (c := c),
    toNat_toLower, toNat_toLower]
  split <;> split <;> grind

theorem IsBlurred.le_toNat (h : IsBlurred c) : 65533 ≤ c.toNat := by
  rcases h with rfl | rfl | rfl <;> decide

/-- A letter is none of the characters that the database confuses. -/
theorem SameButCase.isBlurred_iff (h : SameButCase c d) : IsBlurred c ↔ IsBlurred d := by
  rcases h with rfl | ⟨upper, e⟩ | ⟨upper, e⟩
  · rfl
  all_goals
    have bounds := isUpper_iff.1 upper
    exact iff_of_false (fun b => by have := b.le_toNat; omega)
      (fun b => by have := b.le_toNat; omega)

theorem seenChar_of_isBlurred (h : IsBlurred c) : seenChar c = '\ufffd' := by
  rcases h with rfl | rfl | rfl <;> rfl

theorem seenChar_of_not_isBlurred (h : ¬IsBlurred c) : seenChar c = c := by
  rw [seenChar, if_neg]
  rw [Bool.or_eq_true, decide_eq_true_iff, decide_eq_true_iff]
  exact fun b => h (.inr b)

theorem isBlurred_seenChar_iff : IsBlurred (seenChar c) ↔ IsBlurred c := by
  by_cases h : IsBlurred c
  · rw [seenChar_of_isBlurred h]
    exact iff_of_true (.inl rfl) h
  · rw [seenChar_of_not_isBlurred h]

/-- What the database sees of two characters is the same letter if they count as the same. -/
theorem sameLetter_seenChar_iff (c d : Char) :
    sameLetter (seenChar c) (seenChar d) = true ↔ CountsAs c d := by
  rw [sameLetter_iff, CountsAs]
  have alike (same : SameButCase (seenChar c) (seenChar d)) : IsBlurred c ↔ IsBlurred d := by
    rw [← isBlurred_seenChar_iff, same.isBlurred_iff, isBlurred_seenChar_iff]
  by_cases hc : IsBlurred c <;> by_cases hd : IsBlurred d
  · rw [seenChar_of_isBlurred hc, seenChar_of_isBlurred hd]
    exact iff_of_true (.inl rfl) (.inr ⟨hc, hd⟩)
  · exact iff_of_false (fun same => hd ((alike same).1 hc))
      (Or.rec (fun same => hd (same.isBlurred_iff.1 hc)) fun both => hd both.2)
  · exact iff_of_false (fun same => hc ((alike same).2 hd))
      (Or.rec (fun same => hc (same.isBlurred_iff.2 hd)) fun both => hc both.1)
  · rw [seenChar_of_not_isBlurred hc, seenChar_of_not_isBlurred hd]
    exact (or_iff_left fun both => hc both.1).symm

/-! ## Texts -/

/-- The text occurs in the content, if related characters are taken for the same. -/
def OccursBy (same : Char → Char → Prop) (text content : List Char) : Prop :=
  ∃ before among after, content = before ++ (among ++ after) ∧ List.Forall₂ same text among

/-- Each character of a text that occurs is among those of the content. -/
theorem OccursBy.exists_mem {same : Char → Char → Prop} {text content : List Char}
    (h : OccursBy same text content) : ∀ c ∈ text, ∃ d ∈ content, same c d := by
  obtain ⟨before, among, after, rfl, letters⟩ := h
  intro c hc
  obtain ⟨i, hi, rfl⟩ := List.mem_iff_getElem.1 hc
  obtain ⟨long, related⟩ := List.forall₂_iff_get.1 letters
  have found : among[i] ∈ among := List.getElem_mem (long ▸ hi)
  exact ⟨_, List.mem_append_right _ (List.mem_append_left _ found), related i hi (long ▸ hi)⟩

theorem occurs_iff (text content : List Char) :
    Occurs text content ↔ OccursBy SameButCase text content := by
  have letters : (fun c d => sameLetter c d = true) = SameButCase :=
    funext fun c => funext fun d => propext (sameLetter_iff c d)
  simp only [Occurs, OccursBy, SameLetters, letters]

/-- What is seen of a text occurs in what is seen of another. -/
theorem occurs_map_seenChar_iff (text content : List Char) :
    Occurs (text.map seenChar) (content.map seenChar) ↔ OccursBy CountsAs text content := by
  constructor
  · rintro ⟨before, among, after, e, letters⟩
    obtain ⟨first, rest, rfl, -, e⟩ := List.map_eq_append_iff.1 e
    obtain ⟨found, last, rfl, rfl, -⟩ := List.map_eq_append_iff.1 e
    rw [SameLetters, List.forall₂_map_left_iff, List.forall₂_map_right_iff] at letters
    exact ⟨first, found, last, rfl, letters.imp fun c d => (sameLetter_seenChar_iff c d).1⟩
  · rintro ⟨before, among, after, rfl, letters⟩
    refine ⟨before.map seenChar, among.map seenChar, after.map seenChar, by simp, ?_⟩
    rw [SameLetters, List.forall₂_map_left_iff, List.forall₂_map_right_iff]
    exact letters.imp fun c d => (sameLetter_seenChar_iff c d).2

/-- Texts in which only one of the confused characters may stand. -/
theorem forall₂_sameButCase {text among : List Char} (ht : ∀ c ∈ text, IsBlurred c → c = '\ufffd')
    (ha : ∀ c ∈ among, IsBlurred c → c = '\ufffd') (h : List.Forall₂ CountsAs text among) :
    List.Forall₂ SameButCase text among := by
  induction h with
  | nil => exact .nil
  | cons same _ ih =>
    rw [List.forall_mem_cons] at ht ha
    refine .cons ?_ (ih ht.2 ha.2)
    rcases same with same | ⟨hc, hd⟩
    · exact same
    · exact .inl ((ht.1 hc).trans (ha.1 hd).symm)

/-- The text has none of the characters that the database does not know. -/
def IsKnown (text : List Char) : Prop := '\ufffe' ∉ text ∧ '\uffff' ∉ text

theorem IsKnown.eq_of_isBlurred {text : List Char} (h : IsKnown text) :
    ∀ c ∈ text, IsBlurred c → c = '\ufffd' := by
  rintro c hc (rfl | rfl | rfl)
  · rfl
  · exact absurd hc h.1
  · exact absurd hc h.2

theorem occursBy_countsAs_iff {text content : List Char} (ht : IsKnown text)
    (hc : IsKnown content) :
    OccursBy CountsAs text content ↔ OccursBy SameButCase text content := by
  constructor
  · rintro ⟨before, among, after, rfl, letters⟩
    refine ⟨before, among, after, rfl, forall₂_sameButCase ht.eq_of_isBlurred ?_ letters⟩
    exact fun c h => hc.eq_of_isBlurred c (List.mem_append_right _ (List.mem_append_left _ h))
  · rintro ⟨before, among, after, rfl, letters⟩
    exact ⟨before, among, after, rfl, letters.imp fun _ _ => .inl⟩

end Query.Like

open Query

namespace MemoRow

/-- **A content term is a search for a literal text.** Its pattern matches just the contents in
which the text occurs, whatever characters it has, but for the case of ASCII letters. The database
finds those in which it occurs if `U+FFFD`, `U+FFFE` and `U+FFFF` count as the same character too;
without the last two of them, this is the same. -/
theorem satisfies_content (r : MemoRow) (text : String) (whole : '\x00' ∉ text.toList)
    (whole' : '\x00' ∉ r.content.toList) :
    (Like.matchesAll (Like.containing text.toList) r.content.toList = true ↔
      Like.OccursBy Like.SameButCase text.toList r.content.toList) ∧
    (r.satisfies (.content text) = true ↔
      Like.OccursBy Like.CountsAs text.toList r.content.toList) ∧
    (Like.IsKnown text.toList → Like.IsKnown r.content.toList →
      (r.satisfies (.content text) = true ↔
        Like.OccursBy Like.SameButCase text.toList r.content.toList)) := by
  have found : r.satisfies (.content text) = true ↔
      Like.OccursBy Like.CountsAs text.toList r.content.toList := by
    rw [satisfies, Like.seen_containing whole, Like.matchesAll_containing, Like.seen_eq_map whole,
      Like.seen_eq_map whole', Like.occurs_map_seenChar_iff]
  refine ⟨?_, found, fun known known' => ?_⟩
  · rw [Like.matchesAll_containing, Like.occurs_iff]
  · rw [found, Like.occursBy_countsAs_iff known known']

/-- A memo whose content has all the characters that have a meaning in a pattern. -/
def discount : MemoRow := .ofMemo 1 { Store.draft with content := "Now 50%_OFF \\ here" }

theorem satisfies_content_discount :
    '\x00' ∉ "50%_off \\".toList ∧ '\x00' ∉ discount.content.toList ∧
      discount.satisfies (.content "50%_off \\") = true := by
  have whole : '\x00' ∉ "50%_off \\".toList := by decide
  have whole' : '\x00' ∉ discount.content.toList := by decide
  refine ⟨whole, whole', (satisfies_content discount _ whole whole').2.1.2 ?_⟩
  exact ⟨"Now ".toList, "50%_OFF \\".toList, " here".toList, by decide, by decide⟩

/-- Its underscore is no wildcard. -/
example : discount.satisfies (.content "50__off") = false := by decide

end MemoRow

namespace Store

/-- The database takes the last code point of the first plane for the replacement character: a
stored memo satisfies a term whose text it does not contain. -/
theorem satisfies_blurred : ∃ r ∈ (run blurred).memos, '\x00' ∉ r.content.toList ∧
    r.satisfies (.content "\ufffd") = true ∧
      ¬Like.OccursBy Like.SameButCase "\ufffd".toList r.content.toList := by
  refine ⟨MemoRow.ofMemo 1 { draft with content := "\uffff" }, List.mem_singleton.2 rfl, by decide,
    by decide, fun occurs => ?_⟩
  obtain ⟨d, hd, same⟩ := occurs.exists_mem '\ufffd' (by decide)
  have last : d = '\uffff' := List.mem_singleton.1 hd
  rw [last] at same
  exact absurd same (by decide)

end Store

end MemoTransfer
