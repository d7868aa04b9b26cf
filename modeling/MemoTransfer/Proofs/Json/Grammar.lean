import MemoTransfer.Proofs.Json.Strings
import MemoTransfer.Proofs.Json.Numbers

/-!
# JSON texts

The texts of JSON values, whatever their white space and however their strings and numbers are
spelled (`IsValue`). The items of a list and the members of an object stand between commas and white
space (`Parts`); a member is its name, a colon and its value (`Entry`). Lists and objects may nest
without limit. By the first character of a value its kind is known (`IsValue.exists_cons` and the
lemmas after it). A string is read as what its text stands for (`SpellsText.text`).
-/

namespace MemoTransfer.Json

open MemoTransfer.Utf8 MemoTransfer.Number

/-! ## Marks -/

theorem Opens.ne_mark {c d : Char} (h : Opens c)
    (hd : d ∈ [',', ']', '}', ':']) : c ≠ d := by
  rintro rfl
  revert h
  fin_cases hd <;> decide

/-- A mark that ends a list or an object, or goes on with it, ends a numeral before it. -/
theorem endsNumeral_mark {d : Char} (hd : d ∈ [',', ']', '}']) {space : Bytes}
    (hs : AllSpace space) (rest : Bytes) : EndsNumeral (space ++ byteOf d :: rest) := by
  apply hs.endsNumeral
  fin_cases hd <;> exact endsNumeral_cons (by decide) _

/-! ## Lists and objects -/

/-- What stands between the marks of a list or an object with the parts. The first part stands
behind white space, every other one behind a comma, too. -/
inductive Parts : Bool → List Bytes → Bytes → Prop
  | nil {isFirst : Bool} {gap : Bytes} (h : AllSpace gap) : Parts isFirst [] gap
  | first {space part bs : Bytes} {parts : List Bytes} (hspace : AllSpace space)
    (further : Parts false parts bs) : Parts true (part :: parts) (space ++ (part ++ bs))
  | next {gap space part bs : Bytes} {parts : List Bytes} (hgap : AllSpace gap)
    (hspace : AllSpace space) (further : Parts false parts bs) :
    Parts false (part :: parts) (gap ++ byteOf ',' :: (space ++ (part ++ bs)))

/-- A list with the items. -/
def IsList (items : List Bytes) (bs : Bytes) : Prop :=
  ∃ inner, Parts true items inner ∧ bs = byteOf '[' :: (inner ++ [byteOf ']'])

/-- A member of an object as it stands in a text: what is between the quotes of its name, the white
space around its colon, and its value. -/
structure Entry where
  name : Bytes
  gap : Bytes
  space : Bytes
  value : Bytes
  isBody : IsBody name
  allSpace_gap : AllSpace gap
  allSpace_space : AllSpace space

/-- The text of a member. -/
def Entry.text (e : Entry) : Bytes :=
  byteOf '"' :: (e.name ++ byteOf '"' :: (e.gap ++ byteOf ':' :: (e.space ++ e.value)))

/-- An object with the members. -/
def IsObject (entries : List Entry) (bs : Bytes) : Prop :=
  ∃ inner, Parts true (entries.map Entry.text) inner ∧
    bs = byteOf '\x7b' :: (inner ++ [byteOf '}'])

/-! ## Values -/

/-- The text of a JSON value, without white space around it. -/
inductive IsValue : Bytes → Prop
  | word {cs : List Char}
    (h : cs ∈ [['n', 'u', 'l', 'l'], ['t', 'r', 'u', 'e'], ['f', 'a', 'l', 's', 'e']]) :
    IsValue (bytes cs)
  | number {n : Numeral} {cs : List Char} (h : n.WellFormed) (hp : SpellsPower n.power cs) :
    IsValue (bytes (n.front ++ cs))
  | text {bs : Bytes} (h : IsBody bs) : IsValue (byteOf '"' :: (bs ++ [byteOf '"']))
  | list {items : List Bytes} {bs : Bytes} (h : ∀ v ∈ items, IsValue v) (hl : IsList items bs) :
    IsValue bs
  | object {entries : List Entry} {bs : Bytes} (h : ∀ e ∈ entries, IsValue e.value)
    (ho : IsObject entries bs) : IsValue bs

/-- What the first character of a value says of it. -/
structure Shape (c : Char) (bs : Bytes) : Prop where
  opens : Opens c
  null : c = 'n' → bs = bytes ['n', 'u', 'l', 'l']
  yes : c = 't' → bs = bytes ['t', 'r', 'u', 'e']
  no : c = 'f' → bs = bytes ['f', 'a', 'l', 's', 'e']
  number : c = '-' ∨ c.isDigit = true → ∃ (n : Numeral) (cs : List Char), n.WellFormed ∧
    SpellsPower n.power cs ∧ bs = bytes (n.front ++ cs)
  text : c = '"' → ∃ body, IsBody body ∧ bs = byteOf '"' :: (body ++ [byteOf '"'])
  list : c = '[' → ∃ items, (∀ v ∈ items, IsValue v) ∧ IsList items bs
  object : c = '\x7b' → ∃ entries : List Entry, (∀ e ∈ entries, IsValue e.value) ∧
    IsObject entries bs

/-- **A value has the shape that its first character says.** -/
theorem IsValue.exists_cons {bs : Bytes} (h : IsValue bs) :
    ∃ c tl, bs = byteOf c :: tl ∧ Shape c bs := by
  cases h with
  | word hw =>
    simp only [List.mem_cons, List.not_mem_nil, or_false] at hw
    rcases hw with rfl | rfl | rfl
    · exact ⟨'n', _, rfl, by decide, fun _ => rfl, nofun, nofun, nofun, nofun, nofun, nofun⟩
    · exact ⟨'t', _, rfl, by decide, nofun, fun _ => rfl, nofun, nofun, nofun, nofun, nofun⟩
    · exact ⟨'f', _, rfl, by decide, nofun, nofun, fun _ => rfl, nofun, nofun, nofun, nofun⟩
  | @number n cs hn hp =>
    obtain ⟨c, ds, e, hc⟩ := hn.exists_cons cs
    have opens := opens_of_sign hc
    refine ⟨c, bytes ds, by rw [e, bytes_cons opens.toNat_lt], opens, ?_, ?_, ?_,
      fun _ => ⟨n, cs, hn, hp, rfl⟩, ?_, ?_, ?_⟩ <;>
    exact fun hd => absurd hd (ne_of_sign hc (by decide))
  | text hb =>
    exact ⟨'"', _, rfl, by decide, nofun, nofun, nofun,
      fun hd => absurd hd (by decide), fun _ => ⟨_, hb, rfl⟩, nofun, nofun⟩
  | list hv hl =>
    obtain ⟨inner, hi, rfl⟩ := hl
    exact ⟨'[', _, rfl, by decide, nofun, nofun, nofun,
      fun hd => absurd hd (by decide), nofun, fun _ => ⟨_, hv, inner, hi, rfl⟩, nofun⟩
  | object hv ho =>
    obtain ⟨inner, hi, rfl⟩ := ho
    exact ⟨'\x7b', _, rfl, by decide, nofun, nofun, nofun,
      fun hd => absurd hd (by decide), nofun, nofun, fun _ => ⟨_, hv, inner, hi, rfl⟩⟩

theorem IsValue.begins {bs : Bytes} (h : IsValue bs) : Begins bs := by
  obtain ⟨c, tl, e, shape⟩ := h.exists_cons
  exact ⟨c, tl, e, shape.opens⟩

/-! ## Strings -/

/-- The text of a string that stands for the characters. -/
def SpellsText (s : String) (bs : Bytes) : Prop :=
  ∃ body, Denotes body s.toList ∧ bs = byteOf '"' :: (body ++ [byteOf '"'])

theorem spellsText_chars (s : String) : SpellsText s (bytes (stringChars s)) :=
  ⟨_, denotes_escapes _, bytes_stringChars s⟩

namespace SpellsText

variable {s : String} {bs : Bytes}

theorem textOf (h : SpellsText s bs) (expected : String) :
    Gives (Reader.textOf expected) bs s := by
  obtain ⟨body, hb, rfl⟩ := h
  refine ⟨⟨'"', _, rfl, by decide⟩, fun space rest hs _ => ?_⟩
  simp only [List.cons_append, List.append_assoc, List.nil_append]
  refine (Reader.start_yields hs (by decide) _).bind ?_
  exact (Reader.advance_yields _ _).bind (Reader.stringBody_denotes hb rest)

theorem text (h : SpellsText s bs) : Gives Reader.text bs s := h.textOf _

/-- A string that its own format reads. -/
theorem parsed {α : Type} {expected : String} {parse : String → Except String α} {v : α}
    (h : SpellsText s bs) (hp : parse s = .ok v) : Gives (Reader.parsed expected parse) bs v := by
  have text := h.textOf expected
  refine ⟨text.begins, fun space rest hs hr => (text.yields space rest hs hr).bind ?_⟩
  rw [hp]
  exact .pure _ _

end SpellsText

/-! ## Marks between the parts -/

namespace Parts

variable {isFirst : Bool} {parts : List Bytes} {part bs : Bytes}

theorem allSpace (h : Parts isFirst [] bs) : AllSpace bs := by
  cases h with
  | nil h => exact h

/-- What follows a part is a comma or the end, perhaps behind white space. -/
theorem endsNumeral (h : Parts false parts bs) {d : Char} (hd : d ∈ [']', '}']) (rest : Bytes) :
    EndsNumeral (bs ++ byteOf d :: rest) := by
  cases h with
  | nil h => exact endsNumeral_mark (List.mem_cons_of_mem _ hd) h rest
  | next hgap =>
    rw [List.append_assoc, List.cons_append]
    exact endsNumeral_mark (by decide) hgap _

/-- Each part takes at least one byte. -/
theorem length_le (h : Parts isFirst parts bs) (begin : ∀ part ∈ parts, Begins part) :
    parts.length ≤ bs.length := by
  induction h with
  | nil _ => exact Nat.zero_le _
  | first _ _ ih =>
    obtain ⟨c, tl, rfl, -⟩ := begin _ List.mem_cons_self
    have := ih fun part hp => begin part (List.mem_cons_of_mem _ hp)
    simp only [List.length_append, List.length_cons]
    omega
  | next _ _ _ ih =>
    have := ih fun part hp => begin part (List.mem_cons_of_mem _ hp)
    simp only [List.length_append, List.length_cons]
    omega

end Parts

namespace Reader

variable {isFirst : Bool} {parts : List Bytes} {part bs : Bytes}

theorem moreItems_end (h : Parts isFirst [] bs) (rest : Bytes) :
    Yields (moreItems isFirst) (bs ++ byteOf ']' :: rest) false (byteOf ']' :: rest) :=
  (peek_yields h.allSpace (by decide) rest).bind (.pure _ _)

theorem moreItems_part (h : Parts isFirst (part :: parts) bs) (hp : Begins part) (rest : Bytes) :
    ∃ bs', Parts false parts bs' ∧ bs'.length < bs.length ∧
      Yields (moreItems isFirst) (bs ++ byteOf ']' :: rest) true
        (part ++ (bs' ++ byteOf ']' :: rest)) := by
  obtain ⟨c, tl, rfl, hc⟩ := hp
  have ne : c ≠ ']' := hc.ne_mark (by decide)
  cases h with
  | @first space _ bs' _ hspace further =>
    refine ⟨bs', further, by simp only [List.length_append, List.length_cons]; omega, ?_⟩
    simp only [List.append_assoc, List.cons_append]
    refine (peek_yields hspace hc.isMark _).bind ?_
    split
    · contradiction
    · rename_i e
      exact absurd (Option.some.inj e) ne
    · exact .pure _ _
  | @next gap space _ bs' _ hgap hspace further =>
    refine ⟨bs', further, by simp only [List.length_append, List.length_cons]; omega, ?_⟩
    simp only [List.append_assoc, List.cons_append]
    refine (peek_yields hgap (c := ',') (by decide) _).bind ((advance_yields _ _).bind ?_)
    refine (peek_yields hspace hc.isMark _).bind ?_
    split
    · contradiction
    · rename_i e
      exact absurd (Option.some.inj e) ne
    · exact .pure _ _

theorem moreMembers_end (h : Parts isFirst [] bs) (rest : Bytes) :
    Yields (moreMembers isFirst) (bs ++ byteOf '}' :: rest) false (byteOf '}' :: rest) :=
  (peek_yields h.allSpace (by decide) rest).bind (.pure _ _)

theorem moreMembers_part {tl : Bytes} (h : Parts isFirst ((byteOf '"' :: tl) :: parts) bs)
    (rest : Bytes) :
    ∃ bs', Parts false parts bs' ∧ bs'.length < bs.length ∧
      Yields (moreMembers isFirst) (bs ++ byteOf '}' :: rest) true
        (byteOf '"' :: (tl ++ (bs' ++ byteOf '}' :: rest))) := by
  cases h with
  | @first space _ bs' _ hspace further =>
    refine ⟨bs', further, by simp only [List.length_append, List.length_cons]; omega, ?_⟩
    simp only [List.append_assoc, List.cons_append]
    exact (peek_yields hspace (c := '"') (by decide) _).bind (.pure _ _)
  | @next gap space _ bs' _ hgap hspace further =>
    refine ⟨bs', further, by simp only [List.length_append, List.length_cons]; omega, ?_⟩
    simp only [List.append_assoc, List.cons_append]
    refine (peek_yields hgap (c := ',') (by decide) _).bind ((advance_yields _ _).bind ?_)
    exact (peek_yields hspace (c := '"') (by decide) _).bind (.pure _ _)

/-- The colon of a member. -/
theorem colon_yields {gap : Bytes} (h : AllSpace gap) (rest : Bytes) :
    Yields colon (gap ++ byteOf ':' :: rest) ⟨⟩ rest :=
  (peek_yields h (c := ':') (by decide) rest).bind (advance_yields _ _)

end Reader

end MemoTransfer.Json
