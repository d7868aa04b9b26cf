import MemoTransfer.Json.Reader.Skip
import MemoTransfer.Proofs.Json.Grammar

/-!
# Skipping a value

Skipping goes from part to part of a text and keeps in mind what it stands in; `Skips` says that
some number of parts leads from one place to another. By induction on the grammar every value is
skipped to its end and no further, in whatever it stands (`IsValue.skippable`), and each part takes
at least one byte, so that the length of the text is enough of a limit (`IsValue.skipped`).
-/

namespace MemoTransfer.Json

open MemoTransfer.Utf8 MemoTransfer.Number

namespace Reader

/-! ## Strings and names -/

theorem skipStringBytes_body {bs : Bytes} (h : IsBody bs) {n : Nat} (hn : bs.length < n)
    (rest : Bytes) : skipStringBytes n (bs ++ byteOf '"' :: rest) = .ok rest := by
  induction h generalizing n with
  | nil =>
    obtain ⟨n, rfl⟩ : ∃ m, n = m + 1 := ⟨n - 1, by omega⟩
    rw [List.nil_append, skipStringBytes.eq_def]
    exact if_pos (by decide)
  | plain hp _ ih =>
    rw [List.length_cons] at hn
    obtain ⟨n, rfl⟩ : ∃ m, n = m + 1 := ⟨n - 1, by omega⟩
    rw [List.cons_append, skipStringBytes.eq_def]
    dsimp only
    rw [if_neg hp.1, if_neg hp.2.1, if_neg hp.2.2, ih (by omega)]
  | @short e bs he _ ih =>
    simp only [List.length_cons] at hn
    obtain ⟨n, rfl⟩ : ∃ m, n = m + 1 := ⟨n - 1, by omega⟩
    have hu : Char.ofUInt8 e ≠ 'u' := by
      intro hu
      rw [eq_byteOf hu] at he
      cases he
    rw [List.cons_append, List.cons_append, skipStringBytes.eq_def]
    dsimp only
    rw [if_neg (by decide), if_pos (by decide), if_neg hu, if_pos he, ih (by omega)]
  | unit hu _ ih =>
    simp only [List.length_cons, List.length_append] at hn
    obtain ⟨n, rfl⟩ : ∃ m, n = m + 1 := ⟨n - 1, by omega⟩
    rw [List.cons_append, List.cons_append, List.append_assoc, skipStringBytes.eq_def]
    dsimp only
    rw [if_neg (by decide), if_pos (by decide), if_pos (by decide), hu.hexUnit]
    exact ih (by omega)

theorem skipString_yields {bs : Bytes} (h : IsBody bs) (rest : Bytes) :
    Yields skipString (bs ++ byteOf '"' :: rest) ⟨⟩ rest := by
  have skipped := skipStringBytes_body h (n := (bs ++ byteOf '"' :: rest).length) (by simp) rest
  exact (Yields.get _).bind ((Yields.lift skipped _).bind (.set _ _))

/-- The name of a member and its colon. -/
theorem skipName_yields (e : Entry) {space : Bytes} (hs : AllSpace space) (rest : Bytes) :
    Yields skipName (space ++ (e.text ++ rest)) ⟨⟩ (e.space ++ (e.value ++ rest)) := by
  simp only [Entry.text, List.cons_append, List.append_assoc]
  refine (peek_yields hs (c := '"') (by decide) _).bind ((advance_yields _ _).bind ?_)
  exact (skipString_yields e.isBody _).bind (colon_yields e.allSpace_gap _)

end Reader

/-! ## Going from part to part -/

open Reader (Skipping skipPart skipParts)

/-- Some number of parts, each of at least one byte, leads from one place in a text to another. -/
def Skips (s : Skipping) (around : List Enclosure) (bs : Bytes) (s' : Skipping)
    (around' : List Enclosure) (rest : Bytes) : Prop :=
  ∃ k, k + rest.length ≤ bs.length ∧
    ∀ n, StateT.run (skipParts (k + n) s around) bs = StateT.run (skipParts n s' around') rest

namespace Skips

variable {s s' s'' : Skipping} {around around' around'' : List Enclosure} {bs cs rest : Bytes}

theorem trans (h : Skips s around bs s' around' cs) (h' : Skips s' around' cs s'' around'' rest) :
    Skips s around bs s'' around'' rest := by
  obtain ⟨k, hk, run⟩ := h
  obtain ⟨k', hk', run'⟩ := h'
  exact ⟨k + k', by omega, fun n => by rw [Nat.add_assoc, run, run']⟩

/-- One part; skipping is not at its end yet. -/
theorem single (live : s = .value ∨ around ≠ [])
    (h : Yields (skipPart s around) bs (s', around') rest) (shorter : rest.length < bs.length) :
    Skips s around bs s' around' rest := by
  refine ⟨1, by omega, fun n => ?_⟩
  have step : skipParts (1 + n) s around =
      skipPart s around >>= fun next => skipParts n next.1 next.2 := by
    rw [Nat.add_comm]
    cases s with
    | value => rfl
    | rest =>
      cases around with
      | nil => rcases live with h | h <;> contradiction
      | cons e outer => rfl
  rw [step, StateT.run_bind, h]
  rfl

end Skips

/-- The value is skipped to its end, whatever it stands in. -/
structure Skippable (value : Bytes) : Prop where
  begins : Begins value
  skips : ∀ space rest around, AllSpace space → EndsNumeral rest →
    Skips .value around (space ++ (value ++ rest)) .rest around rest

/-! ## Values without parts -/

theorem skippable_of_scalar {c : Char} {tl : Bytes} (hc : Opens c) (hl : c ≠ '[')
    (ho : c ≠ '\x7b') (h : ∀ rest, EndsNumeral rest →
      Yields (Reader.skipScalar c) (byteOf c :: (tl ++ rest)) ⟨⟩ rest) :
    Skippable (byteOf c :: tl) := by
  refine ⟨⟨c, tl, rfl, hc⟩, fun space rest around hs hr => ?_⟩
  refine .single (.inl rfl) ?_ (by simp only [List.length_append, List.length_cons]; omega)
  refine (Reader.peek_yields hs hc.isMark _).bind ?_
  split
  · contradiction
  · rename_i e
    exact absurd (Option.some.inj e) hl
  · rename_i e
    exact absurd (Option.some.inj e) ho
  · rename_i e
    cases e
    exact (h rest hr).bind (.pure _ _)

/-! ## Lists and objects -/

namespace Enclosure

/-- The mark that opens an enclosure. -/
def opening : Enclosure → Char
  | .list => '['
  | .object => '\x7b'

/-- The part of a list or an object with the value: an item, or a member. -/
def HasPart : Enclosure → Bytes → Bytes → Prop
  | .list, part, value => part = value
  | .object, part, value => ∃ e : Entry, part = e.text ∧ value = e.value

theorem HasPart.begins {e : Enclosure} {part value : Bytes} (h : e.HasPart part value)
    (hv : Begins value) : Begins part := by
  cases e with
  | list =>
    cases h
    exact hv
  | object =>
    obtain ⟨entry, rfl, -⟩ := h
    exact ⟨'"', _, rfl, by decide⟩

theorem mem_mark (e : Enclosure) : e.mark ∈ [']', '}'] := by cases e <;> decide

theorem isMark_mark (e : Enclosure) : IsMark e.mark := by cases e <;> decide

theorem mark_ne_comma (e : Enclosure) : e.mark ≠ ',' := by cases e <;> decide

end Enclosure

/-- What comes before the value of a part is taken. -/
theorem skip_name {e : Enclosure} {part value space : Bytes} (h : e.HasPart part value)
    (hs : AllSpace space) (around : List Enclosure) (rest : Bytes) :
    ∃ space', AllSpace space' ∧
      (space' ++ (value ++ rest)).length ≤ (space ++ (part ++ rest)).length ∧
      Yields (do
        if e = .object then Reader.skipName
        return (Skipping.value, e :: around)) (space ++ (part ++ rest)) (.value, e :: around)
        (space' ++ (value ++ rest)) := by
  cases e with
  | list =>
    cases h
    exact ⟨space, hs, Nat.le_refl _, .pure _ _⟩
  | object =>
    obtain ⟨entry, rfl, rfl⟩ := h
    refine ⟨entry.space, entry.allSpace_space, ?_, ?_⟩
    · simp only [Entry.text, List.length_append, List.length_cons]
      omega
    · exact (Reader.skipName_yields entry hs rest).bind (.pure _ _)

section Enclosed

variable {e : Enclosure} {parts : List Bytes} {bs : Bytes}

/-- Behind a part of a list or an object, skipping goes on to its end. -/
theorem skips_further (hp : Parts false parts bs)
    (h : ∀ part ∈ parts, ∃ value, e.HasPart part value ∧ Skippable value)
    (outer : List Enclosure) (rest : Bytes) :
    Skips .rest (e :: outer) (bs ++ byteOf e.mark :: rest) .rest outer rest := by
  induction parts generalizing bs with
  | nil =>
    refine .single (.inr (List.cons_ne_nil _ _)) ?_ (by simp; omega)
    refine (Reader.peek_yields hp.allSpace e.isMark_mark rest).bind ?_
    dsimp only
    rw [if_neg e.mark_ne_comma, if_pos rfl]
    exact (Reader.advance_yields _ _).bind (.pure _ _)
  | cons part parts ih =>
    cases hp with
    | @next gap space _ bs _ hgap hspace further =>
      obtain ⟨value, hvalue, skippable⟩ := h part List.mem_cons_self
      have onward := ih further fun p hp => h p (List.mem_cons_of_mem part hp)
      have ends : EndsNumeral (bs ++ byteOf e.mark :: rest) := further.endsNumeral e.mem_mark rest
      obtain ⟨space', hs', shorter, name⟩ :=
        skip_name hvalue hspace outer (bs ++ byteOf e.mark :: rest)
      simp only [List.append_assoc, List.cons_append]
      refine .trans (.single (.inr (List.cons_ne_nil _ _)) ?_ ?_)
        ((skippable.skips space' _ (e :: outer) hs' ends).trans onward)
      · refine (Reader.peek_yields hgap (c := ',') (by decide) _).bind ?_
        dsimp only
        rw [if_pos rfl]
        exact (Reader.advance_yields _ _).bind name
      · simp only [List.length_append, List.length_cons] at shorter ⊢
        omega

theorem skippable_enclosed (hp : Parts true parts bs)
    (h : ∀ part ∈ parts, ∃ value, e.HasPart part value ∧ Skippable value) :
    Skippable (byteOf e.opening :: (bs ++ [byteOf e.mark])) := by
  have opens : Opens e.opening := by cases e <;> decide
  refine ⟨⟨_, _, rfl, opens⟩, fun space rest around hs hr => ?_⟩
  -- behind the opening mark, whichever it is
  have entered {s' : Skipping} {around' : List Enclosure} {tl rest' : Bytes}
      (h : Yields (Reader.enter e around) tl (s', around') rest') :
      Yields (skipPart .value around) (space ++ byteOf e.opening :: tl) (s', around') rest' := by
    refine (Reader.peek_yields hs opens.isMark _).bind ?_
    cases e <;> exact (Reader.advance_yields _ _).bind h
  simp only [List.cons_append, List.append_assoc, List.nil_append]
  cases hp with
  | nil hgap =>
    refine .single (.inl rfl) (entered ?_) ?_
    · refine (Reader.peek_yields hgap e.isMark_mark rest).bind ?_
      dsimp only
      rw [if_pos rfl]
      exact (Reader.advance_yields _ _).bind (.pure _ _)
    · simp only [List.length_append, List.length_cons]
      omega
  | @first gap part bs parts hgap further =>
    obtain ⟨value, hvalue, skippable⟩ := h part List.mem_cons_self
    have onward := skips_further further (fun p hp => h p (List.mem_cons_of_mem part hp)) around
      rest
    have ends : EndsNumeral (bs ++ byteOf e.mark :: rest) := further.endsNumeral e.mem_mark rest
    obtain ⟨space', hs', shorter, name⟩ :=
      skip_name hvalue allSpace_nil around (bs ++ byteOf e.mark :: rest)
    simp only [List.append_assoc]
    refine .trans (.single (.inl rfl) (entered ?_) ?_)
      ((skippable.skips space' _ (e :: around) hs' ends).trans onward)
    · obtain ⟨c, tl, rfl, hc⟩ := hvalue.begins skippable.begins
      have ne : c ≠ e.mark :=
        hc.ne_mark (List.mem_cons_of_mem _ (List.mem_append_left [':'] e.mem_mark))
      rw [List.cons_append] at name ⊢
      refine (Reader.peek_yields hgap hc.isMark _).bind ?_
      dsimp only
      rw [if_neg ne]
      exact name
    · simp only [List.length_append, List.length_cons, List.length_nil] at shorter ⊢
      omega

end Enclosed

/-! ## All values -/

/-- **Every value is skipped to its end**, however deep it nests. -/
theorem IsValue.skippable {bs : Bytes} (h : IsValue bs) : Skippable bs := by
  induction h with
  | word hw =>
    have word {c : Char} {cs : List Char} (hc : Opens c) (hl : c ≠ '[') (ho : c ≠ '\x7b')
        (ascii : ∀ d ∈ c :: cs, d.toNat < 128)
        (h : Reader.skipScalar c = Reader.letters (c :: cs)) : Skippable (bytes (c :: cs)) := by
      rw [bytes_cons hc.toNat_lt]
      refine skippable_of_scalar hc hl ho fun rest _ => ?_
      rw [h, ← List.cons_append, ← bytes_cons hc.toNat_lt]
      exact Reader.letters_yields ascii rest
    simp only [List.mem_cons, List.not_mem_nil, or_false] at hw
    rcases hw with rfl | rfl | rfl
    · exact word (by decide) (by decide) (by decide) (by simp) rfl
    · exact word (by decide) (by decide) (by decide) (by simp) rfl
    · exact word (by decide) (by decide) (by decide) (by simp) rfl
  | @number n cs hn hp =>
    obtain ⟨c, ds, e, hc⟩ := hn.exists_cons cs
    have opens := opens_of_sign hc
    have ne (d : Char) (hd : ¬(d = '-' ∨ d.isDigit = true)) : c ≠ d := ne_of_sign hc hd
    rw [e, bytes_cons opens.toNat_lt]
    refine skippable_of_scalar opens (ne _ (by decide)) (ne _ (by decide)) fun rest hr => ?_
    have numeral := Reader.numeral_yields_front hn hp hr .badNumber
    rw [e, bytes_cons opens.toNat_lt] at numeral
    rw [Reader.skipScalar, if_neg (ne _ (by decide)), if_neg (ne _ (by decide)),
      if_neg (ne _ (by decide)), if_neg (ne _ (by decide)), if_pos hc]
    exact numeral.bind (.pure _ _)
  | @text bs hb =>
    refine skippable_of_scalar (by decide) (by decide) (by decide) fun rest _ => ?_
    rw [List.append_assoc]
    exact (Reader.advance_yields _ _).bind (Reader.skipString_yields hb rest)
  | list _ hl ih =>
    obtain ⟨inner, hi, rfl⟩ := hl
    exact skippable_enclosed (e := .list) hi fun v hv => ⟨v, rfl, ih v hv⟩
  | @object entries _ _ ho ih =>
    obtain ⟨inner, hi, rfl⟩ := ho
    refine skippable_enclosed (e := .object) hi fun part hp => ?_
    obtain ⟨entry, he, rfl⟩ := List.mem_map.1 hp
    exact ⟨entry.value, ⟨entry, rfl, rfl⟩, ih entry he⟩

/-- **Skipping takes a value from the front of a text and nothing else.** -/
theorem IsValue.skipped {bs : Bytes} (h : IsValue bs) : Gives Reader.skipValue bs ⟨⟩ := by
  refine ⟨h.begins, fun space rest hs hr => (Yields.get _).bind ?_⟩
  obtain ⟨k, hk, run⟩ := h.skippable.skips space rest [] hs hr
  have enough := run ((space ++ (bs ++ rest)).length + 1 - k)
  rw [show k + ((space ++ (bs ++ rest)).length + 1 - k) = (space ++ (bs ++ rest)).length + 1 by
    omega] at enough
  refine enough.trans ?_
  generalize (space ++ (bs ++ rest)).length + 1 - k = n
  cases n <;> rfl


end MemoTransfer.Json
