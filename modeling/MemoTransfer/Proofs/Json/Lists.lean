import MemoTransfer.Proofs.Json.Grammar

/-!
# Lists

A list is read if its items are, whatever stands between them (`Gives.list`). A written list is such
a text, in every layout that puts nothing but white space between the parts of a value
(`Layout.Valid`, `Value.isList_chars`).
-/

namespace MemoTransfer.Json

open MemoTransfer.Utf8

/-! ## Items -/

section Items

variable {α : Type} {item : Reader α} {texts : List Bytes} {vs : List α}

theorem Begins.of_gives (h : List.Forall₂ (Gives item) texts vs) :
    ∀ text ∈ texts, Begins text := by
  induction h with
  | nil => exact fun _ h => absurd h List.not_mem_nil
  | cons first _ ih =>
    intro text h
    rcases List.mem_cons.1 h with rfl | h
    · exact first.begins
    · exact ih text h

/-- The items of a list, up to its end. -/
theorem Reader.items_go_gives (h : List.Forall₂ (Gives item) texts vs) {isFirst : Bool}
    {bs : Bytes} (hp : Parts isFirst texts bs) {n : Nat} (hn : texts.length < n) (taken : List α)
    (rest : Bytes) :
    Yields (items.go item n isFirst taken) (bs ++ byteOf ']' :: rest) (taken.reverse ++ vs)
      rest := by
  induction h generalizing n isFirst bs taken with
  | nil =>
    obtain ⟨n, rfl⟩ : ∃ m, n = m + 1 := ⟨n - 1, by omega⟩
    rw [List.append_nil]
    exact (moreItems_end hp rest).bind ((advance_yields _ _).bind (.pure _ _))
  | @cons text v texts vs first _ ih =>
    rw [List.length_cons] at hn
    obtain ⟨n, rfl⟩ : ∃ m, n = m + 1 := ⟨n - 1, by omega⟩
    obtain ⟨bs', further, -, more⟩ := moreItems_part hp first.begins rest
    have read := first.yields [] _ allSpace_nil (further.endsNumeral (d := ']') (by decide) rest)
    have next := ih further (n := n) (by omega) (v :: taken)
    rw [List.reverse_cons, List.append_assoc, List.singleton_append] at next
    exact more.bind (read.bind next)

/-- **A list is read if its items are.** -/
theorem Gives.list (h : List.Forall₂ (Gives item) texts vs) {bs : Bytes} (hl : IsList texts bs) :
    Gives (Reader.list item) bs vs := by
  obtain ⟨inner, hi, rfl⟩ := hl
  refine ⟨⟨'[', _, rfl, by decide⟩, fun space rest hs _ => ?_⟩
  have enough := hi.length_le (.of_gives h)
  simp only [List.cons_append, List.append_assoc, List.nil_append]
  refine (Reader.start_yields hs (by decide) _).bind ((Reader.advance_yields _ _).bind ?_)
  refine (Yields.get _).bind (Reader.items_go_gives h hi ?_ [] rest)
  simp only [List.length_append, List.length_cons]
  omega

end Items

/-! ## Layouts -/

/-- White space in a written value. -/
def IsGap (cs : List Char) : Prop := ∀ c ∈ cs, c ∈ [' ', '\t', '\n', '\r']

/-- Only white space, and one colon after a name, stands between the parts of a value. -/
structure Layout.Valid (layout : Layout) : Prop where
  newline : ∀ depth, IsGap (layout.newline depth)
  colon : ∃ cs, layout.colon = ':' :: cs ∧ IsGap cs

theorem IsGap.allSpace {cs : List Char} (h : IsGap cs) : AllSpace (bytes cs) := by
  have ascii : ∀ c ∈ cs, c.toNat < 128 := by
    intro c hc
    have := h c hc
    fin_cases this <;> decide
  rw [bytes_eq_map ascii]
  intro b hb
  obtain ⟨c, hc, rfl⟩ := List.mem_map.1 hb
  rw [isSpace_byteOf (ascii c hc)]
  exact decide_eq_true (h c hc)

theorem Layout.compact_valid : Layout.compact.Valid :=
  ⟨fun _ _ hc => absurd hc List.not_mem_nil, [], rfl, fun _ hc => absurd hc List.not_mem_nil⟩

theorem Layout.pretty_valid : Layout.pretty.Valid := by
  refine ⟨fun depth c hc => ?_, [' '], rfl, fun c hc => ?_⟩
  · rcases List.mem_cons.1 hc with rfl | hc
    · decide
    · rw [List.eq_of_mem_replicate hc]
      decide
  · rw [List.mem_singleton.1 hc]
    decide

/-! ## Written lists -/

section Written

variable {layout : Layout}

theorem Value.parts_itemsChars (hl : layout.Valid) (depth : Nat) (vs : List Value) {gap : Bytes}
    (hgap : AllSpace gap) :
    Parts false (vs.map fun v => bytes (v.chars layout depth))
      (bytes (itemsChars layout depth vs) ++ gap) := by
  induction vs with
  | nil => exact .nil hgap
  | cons v vs ih =>
    rw [itemsChars]
    simp only [List.cons_append, bytes_cons (c := ',') (by decide), bytes_append, List.append_assoc]
    exact .next allSpace_nil (hl.newline depth).allSpace ih

theorem Value.isList_chars (hl : layout.Valid) (depth : Nat) (vs : List Value) :
    IsList (vs.map fun v => bytes (v.chars layout (depth + 1)))
      (bytes ((Value.list vs).chars layout depth)) := by
  cases vs with
  | nil => exact ⟨[], .nil allSpace_nil, rfl⟩
  | cons v vs =>
    refine ⟨_, .first (hl.newline (depth + 1)).allSpace
      (parts_itemsChars hl (depth + 1) vs (hl.newline depth).allSpace), ?_⟩
    rw [chars]
    simp only [List.cons_append, bytes_cons (c := '[') (by decide), bytes_append, List.append_assoc]
    rfl

end Written

end MemoTransfer.Json
