import Mathlib.Algebra.Ring.Parity
import Mathlib.Order.Nat
import MemoTransfer.Proofs.Query.Parts

/-!
# Chunks of a filter

What the tokens of a text are, without the reader that finds them. The text is cut at the white
space that has an even number of quotes before it (`IsCut`), and its chunks are the longest spans
without a cut (`IsChunk`). While the reader is in a chunk, its state is told by what it has read of
it: the pending characters, whether a quote is open, and whether the chunk began with one
(`reading_cons`). A text is a single chunk or has a first cut (`cuts_induction`), and so its tokens
are its chunks without their quotes (`tokens_eq_chunks`).
-/

namespace MemoTransfer.Query

open MemoTransfer.Text

variable {cs before after front : List Char} {c : Char} {i j : Nat} {spans : List (Nat × Nat)}

/-! ## Cuts and chunks -/

/-- The text is cut at the place: white space stands there, and the quotes before it are closed. -/
def IsCut (cs : List Char) (i : Nat) : Prop :=
  cs[i]?.any isBlank = true ∧ Even ((cs.take i).count '"')

instance (cs : List Char) (i : Nat) : Decidable (IsCut cs i) := inferInstanceAs (Decidable (_ ∧ _))

/-- A span of the text, from its first place up to the one behind it, without a cut. -/
structure IsUncut (cs : List Char) (i j : Nat) : Prop where
  ordered : i ≤ j
  within : j ≤ cs.length
  uncut : ∀ k, i ≤ k → k < j → ¬IsCut cs k

/-- A chunk of the text: a span without a cut that no other one goes beyond. -/
structure IsChunk (cs : List Char) (i j : Nat) : Prop where
  span : IsUncut cs i j
  filled : i < j
  maximal : ∀ i' j', i' ≤ i → j ≤ j' → IsUncut cs i' j' → i' = i ∧ j' = j

/-- All the chunks of a text, in their order. -/
structure AreChunks (cs : List Char) (spans : List (Nat × Nat)) : Prop where
  ordered : spans.Pairwise fun s t => s.2 < t.1
  mem_iff : ∀ i j, (i, j) ∈ spans ↔ IsChunk cs i j

/-- The characters that are no quotes. -/
def unquoted (cs : List Char) : List Char := cs.filter (· ≠ '"')

/-- The token of a chunk, if more than quotes is in it. -/
def Token.ofChunk (chunk : List Char) : List Token :=
  if (unquoted chunk).isEmpty then [] else [⟨unquoted chunk, chunk.head? = some '"'⟩]

/-- The tokens of the chunks of a text. -/
def chunkTokens (cs : List Char) (spans : List (Nat × Nat)) : List Token :=
  spans.flatMap fun s => Token.ofChunk (cs.extract s.1 s.2)

/-- The character at the place is neither a quote nor cut away. -/
def isKept (cs : List Char) (s : Char × Nat) : Bool := s.1 ≠ '"' && !decide (IsCut cs s.2)

/-- The characters of a text that are neither quotes nor cut away, in their order. -/
def kept (cs : List Char) : List Char := (cs.zipIdx.filter (isKept cs)).map Prod.fst

/-! ## Where a text is cut -/

theorem IsCut.lt_length (h : IsCut cs i) : i < cs.length := by
  obtain ⟨c, found, -⟩ := (Option.any_eq_true _ _).1 h.1
  exact (List.getElem?_eq_some_iff.1 found).1

theorem isCut_append_iff (h : i < before.length) (after : List Char) :
    IsCut (before ++ after) i ↔ IsCut before i := by
  rw [IsCut, IsCut, List.getElem?_append_left h, List.take_append_of_le_length h.le]

theorem isCut_length_iff (before : List Char) (c : Char) (after : List Char) :
    IsCut (before ++ c :: after) before.length ↔
      isBlank c = true ∧ Even (before.count '"') := by
  rw [IsCut, List.getElem?_append_right le_rfl, Nat.sub_self, List.getElem?_cons_zero,
    List.take_left]
  rfl

theorem length_append_cons (before : List Char) (c : Char) (after : List Char) :
    (before ++ c :: after).length = before.length + 1 + after.length := by
  rw [List.length_append, List.length_cons]
  omega

/-- Behind a cut nothing of what stands before it matters. -/
theorem isCut_behind_iff (blank : isBlank c = true) (even : Even (before.count '"'))
    (after : List Char) (i : Nat) :
    IsCut (before ++ c :: after) (before.length + 1 + i) ↔ IsCut after i := by
  have place : (before ++ c :: after)[before.length + 1 + i]? = after[i]? := by
    rw [List.getElem?_append_right (by omega), show before.length + 1 + i - before.length = i + 1 by
      omega, List.getElem?_cons_succ]
  have passed : (before ++ c :: after).take (before.length + 1 + i) =
      before ++ c :: after.take i := by
    rw [List.take_append, List.take_of_length_le (by omega),
      show before.length + 1 + i - before.length = i + 1 by omega, List.take_succ_cons]
  rw [IsCut, IsCut, place, passed, List.count_append,
    List.count_cons_of_ne (ne_quote_of_isBlank blank), Nat.even_add, iff_true_left even]

/-- The first cut of a text, with what stands before it and behind it. -/
theorem exists_first_cut (cuts : ∃ i, IsCut cs i) : ∃ before c after, cs = before ++ c :: after ∧
    (∀ i, ¬IsCut before i) ∧ isBlank c = true ∧ Even (before.count '"') := by
  have first := Nat.find_spec cuts
  have least := fun k => Nat.find_min cuts (m := k)
  generalize Nat.find cuts = i at first least
  have inside := first.lt_length
  have parts : cs = cs.take i ++ cs[i] :: cs.drop (i + 1) := by
    rw [List.getElem_cons_drop, List.take_append_drop]
  have len : (cs.take i).length = i := by
    rw [List.length_take, Nat.min_eq_left inside.le]
  refine ⟨cs.take i, cs[i], cs.drop (i + 1), parts, ?_, ?_, first.2⟩
  · intro k cut
    have before : k < (cs.take i).length := cut.lt_length
    apply least k (by omega)
    rw [parts]
    exact (isCut_append_iff before _).2 cut
  · have blank := first.1
    rwa [List.getElem?_eq_getElem inside] at blank

/-- A text has no cut, or it has a first one and there is less behind it. -/
@[elab_as_elim]
theorem cuts_induction {motive : List Char → Prop}
    (whole : ∀ cs, (∀ i, ¬IsCut cs i) → motive cs)
    (cut : ∀ before c after, (∀ i, ¬IsCut before i) → isBlank c = true →
      Even (before.count '"') → motive after → motive (before ++ c :: after))
    (cs : List Char) : motive cs := by
  induction n : cs.length using Nat.strongRecOn generalizing cs with
  | ind n ih =>
    subst n
    by_cases cuts : ∃ i, IsCut cs i
    · obtain ⟨before, c, after, rfl, uncut, blank, even⟩ := exists_first_cut cuts
      refine cut before c after uncut blank even (ih after.length ?_ after rfl)
      rw [length_append_cons]
      omega
    · exact whole cs (not_exists.1 cuts)

/-! ## What the reader knows of a chunk -/

/-- The tokens of the rest of a text, after what has been read of the chunk that it goes on with. -/
def reading (front cs : List Char) : Option (List Token) :=
  tokensFrom (unquoted front).reverse (Odd (front.count '"')) (front.head? = some '"') cs

theorem unquoted_concat_quote (front : List Char) : unquoted (front ++ ['"']) = unquoted front := by
  rw [unquoted, List.filter_append]
  exact List.append_nil _

theorem unquoted_concat (other : c ≠ '"') (front : List Char) :
    unquoted (front ++ [c]) = unquoted front ++ [c] := by
  simp [unquoted, other]

/-- A quote that opens is the first character of the chunk if only quotes stand before it, and then
either it or one of these is the first. -/
theorem begins_or_empty (front : List Char) :
    (decide (front.head? = some '"') || (unquoted front).reverse.isEmpty) =
      decide ((front ++ ['"']).head? = some '"') := by
  cases front with
  | nil => rfl
  | cons d front =>
    by_cases quote : d = '"'
    · simp [quote]
    · simp [quote, unquoted]

/-- **One character of a chunk.** -/
theorem reading_cons (joins : ¬(isBlank c = true ∧ Even (front.count '"'))) (cs : List Char) :
    reading front (c :: cs) = reading (front ++ [c]) cs := by
  unfold reading
  by_cases quote : c = '"'
  · subst quote
    rw [unquoted_concat_quote, List.count_append, List.count_singleton_self]
    by_cases even : Even (front.count '"')
    · rw [decide_eq_false (Nat.not_odd_iff_even.2 even), decide_eq_true even.add_one,
        tokensFrom_opening, begins_or_empty]
    · have odd := Nat.not_even_iff_odd.1 even
      have begun : (front ++ ['"']).head? = front.head? := by
        cases front with
        | nil => exact absurd Even.zero even
        | cons d front => rfl
      rw [decide_eq_true odd, decide_eq_false (Nat.not_odd_iff_even.2 odd.add_one),
        tokensFrom_closing, begun]
  · have state : decide (Odd (front.count '"')) = true ∨ isBlank c = false := by
      rw [decide_eq_true_iff, ← Nat.not_even_iff_odd, ← Bool.not_eq_true, ← not_and_or, and_comm]
      exact joins
    have count : (front ++ [c]).count '"' = front.count '"' := by
      rw [List.count_append, List.count_singleton, if_neg (by simpa using quote), Nat.add_zero]
    have first : (front ++ [c]).head? = some '"' ↔ front.head? = some '"' := by
      cases front <;> simp [quote]
    rw [tokensFrom_solid quote state, unquoted_concat quote, List.reverse_concat, count]
    simp only [first]

/-- The tokens of the rest of a text that goes on with its last chunk. -/
theorem reading_uncut (uncut : ∀ i, ¬IsCut (front ++ cs) (front.length + i)) :
    reading front cs =
      if Odd ((front ++ cs).count '"') then none else some (Token.ofChunk (front ++ cs)) := by
  induction cs generalizing front with
  | nil =>
    simp only [reading, tokensFrom, List.append_nil, decide_eq_true_eq, Token.ofPending,
      Token.ofChunk, List.isEmpty_reverse, List.reverse_reverse]
  | cons c cs ih =>
    have joins := uncut 0
    rw [Nat.add_zero, isCut_length_iff] at joins
    have whole : front ++ c :: cs = (front ++ [c]) ++ cs := by
      rw [List.append_assoc, List.singleton_append]
    rw [reading_cons joins, whole]
    rw [whole] at uncut
    apply ih
    intro i
    rw [List.length_append, List.length_singleton, Nat.add_assoc]
    exact uncut (1 + i)

theorem tokens?_uncut (uncut : ∀ i, ¬IsCut cs i) :
    tokens? cs = if Odd (cs.count '"') then none else some (Token.ofChunk cs) := by
  change reading [] cs = _
  exact reading_uncut fun i => uncut (0 + i)

/-- The tokens of a text with a cut are those of what stands before it and behind it. -/
theorem tokens?_cut (uncut : ∀ i, ¬IsCut before i) (blank : isBlank c = true)
    (even : Even (before.count '"')) (after : List Char) :
    tokens? (before ++ c :: after) = (tokens? after).map (Token.ofChunk before ++ ·) := by
  have first : tokens? before = some (Token.ofChunk before) := by
    rw [tokens?_uncut uncut, if_neg (Nat.not_odd_iff_even.2 even)]
  exact tokens?_append blank first after

/-! ## Finding the chunks -/

theorem IsUncut.from_pred (h : IsUncut cs i j) (other : ¬IsCut cs (i - 1)) :
    IsUncut cs (i - 1) j := by
  refine ⟨(Nat.sub_le i 1).trans h.ordered, h.within, fun k above below => ?_⟩
  rcases Nat.eq_or_lt_of_le above with rfl | inside
  · exact other
  · exact h.uncut k (by omega) below

theorem IsUncut.to_succ (h : IsUncut cs i j) (inside : j < cs.length) (other : ¬IsCut cs j) :
    IsUncut cs i (j + 1) := by
  refine ⟨h.ordered.trans (Nat.le_succ j), inside, fun k above below => ?_⟩
  rcases Nat.eq_or_lt_of_le (Nat.le_of_lt_succ below) with rfl | before
  · exact other
  · exact h.uncut k above before

/-- A span without a cut is a chunk if it ends on both sides at a cut or with the text: it could be
made longer by one place otherwise. -/
theorem isChunk_iff : IsChunk cs i j ↔ IsUncut cs i j ∧ i < j ∧
    (i = 0 ∨ IsCut cs (i - 1)) ∧ (j = cs.length ∨ IsCut cs j) := by
  constructor
  · intro ⟨span, filled, maximal⟩
    refine ⟨span, filled, ?_, ?_⟩
    · by_contra further
      rw [not_or] at further
      have := maximal (i - 1) j (Nat.sub_le i 1) le_rfl (span.from_pred further.2)
      omega
    · by_contra further
      rw [not_or] at further
      have inside : j < cs.length := Nat.lt_of_le_of_ne span.within further.1
      have := maximal i (j + 1) le_rfl (Nat.le_succ j) (span.to_succ inside further.2)
      omega
  · intro ⟨span, filled, left, right⟩
    refine ⟨span, filled, fun i' j' hi hj longer => ⟨?_, ?_⟩⟩
    · rcases left with rfl | cut
      · exact Nat.le_zero.1 hi
      · by_contra other
        exact longer.uncut (i - 1) (by omega) (by omega) cut
    · rcases right with rfl | cut
      · exact le_antisymm longer.within hj
      · by_contra other
        exact longer.uncut j (by omega) (by omega) cut

/-- The whole of a text, if it has characters. -/
def wholeSpan (cs : List Char) : List (Nat × Nat) := if cs.isEmpty then [] else [(0, cs.length)]

theorem mem_wholeSpan_iff : (i, j) ∈ wholeSpan cs ↔ (i = 0 ∧ j = cs.length) ∧ i < j := by
  cases cs with
  | nil =>
    refine iff_of_false List.not_mem_nil ?_
    rintro ⟨⟨rfl, rfl⟩, filled⟩
    exact Nat.lt_irrefl _ filled
  | cons c cs =>
    rw [wholeSpan, List.isEmpty_cons, if_neg Bool.false_ne_true, List.mem_singleton,
      Prod.mk.injEq, List.length_cons]
    omega

theorem pairwise_wholeSpan (cs : List Char) :
    (wholeSpan cs).Pairwise fun s t => s.2 < t.1 := by
  unfold wholeSpan
  split
  · exact .nil
  · exact List.pairwise_singleton _ _

theorem areChunks_uncut (uncut : ∀ i, ¬IsCut cs i) : AreChunks cs (wholeSpan cs) := by
  refine ⟨pairwise_wholeSpan cs, fun i j => ?_⟩
  rw [mem_wholeSpan_iff, isChunk_iff]
  constructor
  · intro ⟨⟨first, last⟩, filled⟩
    exact ⟨⟨filled.le, last.le, fun k _ _ => uncut k⟩, filled, .inl first, .inl last⟩
  · rintro ⟨-, filled, left, right⟩
    exact ⟨⟨left.resolve_right (uncut _), right.resolve_right (uncut _)⟩, filled⟩

section Cut

variable (blank : isBlank c = true) (even : Even (before.count '"'))

include blank even

theorem isCut_length (after : List Char) : IsCut (before ++ c :: after) before.length :=
  (isCut_length_iff before c after).2 ⟨blank, even⟩

theorem isUncut_behind_iff : IsUncut (before ++ c :: after) (before.length + 1 + i)
    (before.length + 1 + j) ↔ IsUncut after i j := by
  have len := length_append_cons before c after
  constructor
  · intro ⟨ordered, within, uncut⟩
    refine ⟨by omega, by omega, fun k above below cut => ?_⟩
    exact uncut (before.length + 1 + k) (by omega) (by omega)
      ((isCut_behind_iff blank even after k).2 cut)
  · intro ⟨ordered, within, uncut⟩
    refine ⟨by omega, by omega, fun k above below cut => ?_⟩
    obtain ⟨k, rfl⟩ := Nat.exists_eq_add_of_le (Nat.le_trans (Nat.le_add_right _ i) above)
    exact uncut k (by omega) (by omega) ((isCut_behind_iff blank even after k).1 cut)

/-- The chunks behind a cut are those of the text behind it. -/
theorem isChunk_behind_iff : IsChunk (before ++ c :: after) (before.length + 1 + i)
    (before.length + 1 + j) ↔ IsChunk after i j := by
  have left : (before.length + 1 + i = 0 ∨
      IsCut (before ++ c :: after) (before.length + 1 + i - 1)) ↔ i = 0 ∨ IsCut after (i - 1) := by
    cases i with
    | zero => exact iff_of_true (.inr (isCut_length blank even after)) (.inl rfl)
    | succ i =>
      rw [show before.length + 1 + (i + 1) - 1 = before.length + 1 + i by omega,
        isCut_behind_iff blank even, Nat.add_sub_cancel]
      exact or_congr (by omega) Iff.rfl
  have right : (before.length + 1 + j = (before ++ c :: after).length ∨
      IsCut (before ++ c :: after) (before.length + 1 + j)) ↔
        j = after.length ∨ IsCut after j := by
    rw [isCut_behind_iff blank even, length_append_cons]
    exact or_congr (by omega) Iff.rfl
  rw [isChunk_iff, isChunk_iff, left, right, isUncut_behind_iff blank even,
    Nat.add_lt_add_iff_left]

/-- The chunk before a first cut is all that stands there. -/
theorem isChunk_before_iff (uncut : ∀ i, ¬IsCut before i) (h : i ≤ before.length) :
    IsChunk (before ++ c :: after) i j ↔ (i = 0 ∧ j = before.length) ∧ i < j := by
  have len := length_append_cons before c after
  have cut := isCut_length blank even after
  have clear : ∀ k, k < before.length → ¬IsCut (before ++ c :: after) k := fun k inside h =>
    uncut k ((isCut_append_iff inside _).1 h)
  rw [isChunk_iff]
  constructor
  · intro ⟨span, filled, left, right⟩
    have short : j ≤ before.length := by
      by_contra long
      exact span.uncut before.length h (by omega) cut
    have last : j = before.length := by
      rcases right with whole | ends
      · omega
      · by_contra other
        exact clear j (by omega) ends
    exact ⟨⟨left.resolve_right (clear (i - 1) (by omega)), last⟩, filled⟩
  · rintro ⟨⟨rfl, rfl⟩, filled⟩
    exact ⟨⟨filled.le, by omega, fun k _ => clear k⟩, filled, .inl rfl, .inr cut⟩

/-- The chunks of a text with a cut are what stands before it and those behind it. -/
theorem areChunks_cut (uncut : ∀ i, ¬IsCut before i) (chunks : AreChunks after spans) :
    AreChunks (before ++ c :: after) (wholeSpan before ++
      spans.map fun s => (before.length + 1 + s.1, before.length + 1 + s.2)) := by
  constructor
  · refine List.pairwise_append.2 ⟨pairwise_wholeSpan before, ?_, ?_⟩
    · exact List.pairwise_map.2 (chunks.ordered.imp fun h => by omega)
    · intro ⟨i, j⟩ first s later
      obtain ⟨t, -, rfl⟩ := List.mem_map.1 later
      obtain ⟨⟨-, rfl⟩, -⟩ := mem_wholeSpan_iff.1 first
      omega
  · intro i j
    rw [List.mem_append, mem_wholeSpan_iff, List.mem_map]
    constructor
    · rintro (first | ⟨⟨i', j'⟩, found, same⟩)
      · exact (isChunk_before_iff blank even uncut (by omega)).2 first
      · cases same
        exact (isChunk_behind_iff blank even).2 ((chunks.mem_iff i' j').1 found)
    · intro chunk
      rcases Nat.lt_or_ge before.length i with behind | inside
      · obtain ⟨i, rfl⟩ := Nat.exists_eq_add_of_le (Nat.succ_le_of_lt behind)
        obtain ⟨j, rfl⟩ := Nat.exists_eq_add_of_le
          (Nat.le_trans (Nat.succ_le_of_lt behind) chunk.span.ordered)
        exact .inr ⟨(i, j), (chunks.mem_iff i j).2 ((isChunk_behind_iff blank even).1 chunk), rfl⟩
      · exact .inl ((isChunk_before_iff blank even uncut inside).1 chunk)

end Cut

/-! ## The tokens of the chunks -/

theorem chunkTokens_wholeSpan (before after : List Char) :
    chunkTokens (before ++ after) (wholeSpan before) = Token.ofChunk before := by
  cases before with
  | nil => rfl
  | cons d before => simp [chunkTokens, wholeSpan]

theorem chunkTokens_append (cs : List Char) (first second : List (Nat × Nat)) :
    chunkTokens cs (first ++ second) = chunkTokens cs first ++ chunkTokens cs second :=
  List.flatMap_append

theorem chunkTokens_behind (before : List Char) (c : Char) (after : List Char)
    (spans : List (Nat × Nat)) :
    chunkTokens (before ++ c :: after)
        (spans.map fun s => (before.length + 1 + s.1, before.length + 1 + s.2)) =
      chunkTokens after spans := by
  have chunk : ∀ i j, (before ++ c :: after).extract (before.length + 1 + i)
      (before.length + 1 + j) = after.extract i j := by
    intro i j
    have rest : (before ++ c :: after).drop (before.length + 1 + i) = after.drop i := by
      rw [Nat.add_assoc, ← List.drop_drop, List.drop_left, Nat.add_comm 1 i, List.drop_succ_cons]
    rw [List.extract_eq_take_drop, List.extract_eq_take_drop, rest, Nat.add_sub_add_left]
  simp only [chunkTokens, List.flatMap_map, chunk]

theorem flatMap_text_ofChunk (chunk : List Char) :
    (Token.ofChunk chunk).flatMap Token.text = unquoted chunk := by
  unfold Token.ofChunk
  split
  case isTrue empty => exact (List.isEmpty_iff.1 empty).symm
  case isFalse => exact List.append_nil _

theorem kept_uncut (uncut : ∀ i, ¬IsCut cs i) : kept cs = unquoted cs := by
  have other : isKept cs = (fun d => decide (d ≠ '"')) ∘ Prod.fst := by
    funext s
    rw [isKept, decide_eq_false (uncut s.2), Bool.not_false, Bool.and_true]
    rfl
  rw [kept, other, ← List.filter_map, List.zipIdx_map_fst]
  rfl

theorem kept_cut (uncut : ∀ i, ¬IsCut before i) (blank : isBlank c = true)
    (even : Even (before.count '"')) (after : List Char) :
    kept (before ++ c :: after) = unquoted before ++ kept after := by
  have first : before.zipIdx.filter (isKept (before ++ c :: after)) =
      before.zipIdx.filter (isKept before) := by
    apply List.filter_congr
    intro s among
    have inside : s.2 < before.length := List.snd_lt_of_mem_zipIdx among
    simp only [isKept, isCut_append_iff inside]
  have dropped : ¬isKept (before ++ c :: after) (c, before.length) = true := by
    rw [isKept, decide_eq_true (isCut_length blank even after), Bool.not_true, Bool.and_false]
    exact Bool.false_ne_true
  have later : isKept (before ++ c :: after) ∘ Prod.map id (· + (before.length + 1)) =
      isKept after := by
    funext s
    have behind := isCut_behind_iff blank even after s.2
    rw [Nat.add_comm] at behind
    simp only [isKept, Function.comp_apply, Prod.map_fst, Prod.map_snd, id_eq, behind]
  have shifted : after.zipIdx (before.length + 1) =
      after.zipIdx.map (Prod.map id (· + (before.length + 1))) :=
    (List.map_snd_add_zipIdx_eq_zipIdx (k := 0)).symm
  rw [← kept_uncut uncut, kept, List.zipIdx_append, Nat.zero_add, List.zipIdx_cons,
    List.filter_append, first, List.filter_cons_of_neg dropped, List.map_append, shifted,
    List.filter_map, later, List.map_map]
  rfl

/-- **The tokens of a text are its chunks without their quotes.** It has none if a quote stays
open. -/
theorem tokens_eq_chunks (cs : List Char) : ∃ spans, AreChunks cs spans ∧
    tokens? cs = (if Odd (cs.count '"') then none else some (chunkTokens cs spans)) ∧
    (chunkTokens cs spans).flatMap Token.text = kept cs := by
  induction cs using cuts_induction with
  | whole cs uncut =>
    have chunk := chunkTokens_wholeSpan cs []
    rw [List.append_nil] at chunk
    refine ⟨wholeSpan cs, areChunks_uncut uncut, ?_, ?_⟩
    · rw [chunk, tokens?_uncut uncut]
    · rw [chunk, flatMap_text_ofChunk, kept_uncut uncut]
  | cut before c after uncut blank even ih =>
    obtain ⟨spans, chunks, tokens, texts⟩ := ih
    have parity : Odd ((before ++ c :: after).count '"') ↔ Odd (after.count '"') := by
      rw [List.count_append, List.count_cons_of_ne (ne_quote_of_isBlank blank), Nat.odd_add',
        iff_true_right even]
    refine ⟨_, areChunks_cut blank even uncut chunks, ?_, ?_⟩
    · rw [chunkTokens_append, chunkTokens_wholeSpan, chunkTokens_behind,
        tokens?_cut uncut blank even, tokens]
      simp only [parity]
      split <;> rfl
    · rw [chunkTokens_append, chunkTokens_wholeSpan, chunkTokens_behind, List.flatMap_append,
        flatMap_text_ofChunk, texts, kept_cut uncut blank even]

example : tokens? "to\"do list\" \"\" \"\"x".toList =
    some [⟨"todo list".toList, false⟩, ⟨"x".toList, true⟩] := by decide

end MemoTransfer.Query
