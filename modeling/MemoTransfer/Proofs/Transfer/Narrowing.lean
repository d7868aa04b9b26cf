import MemoTransfer.Proofs.Query.Depth
import MemoTransfer.Proofs.Transfer.Querying

/-!
# Filters that narrow each other

The terms of two filters with white space between them are those of both, so what satisfies them
satisfies both filters. The rows that are selected for both are those that are selected for the
first, in the same order, without the ones that the second would leave out (`Store.rowsFor_append`).
So the memos listed for both filters are those listed for the first that are also listed for the
second (`Store.run_narrows`), unless the filters are more than the database can take together.
-/

namespace MemoTransfer

open MemoTransfer.Query MemoTransfer.Text

/-- The query with the terms of its filter is beyond the limits of the database: it is too deep, or
looks for too long a text. -/
def MemoQuery.ExceedsLimits (q : MemoQuery) (terms : List Term) : Prop :=
  q.isTooDeep terms = true ∨ ∃ t ∈ terms, t.isTooLong = true

theorem MemoQuery.ExceedsLimits.mono {q : MemoQuery} {terms terms' : List Term}
    (sub : terms.Sublist terms') (h : q.ExceedsLimits terms) : q.ExceedsLimits terms' :=
  h.imp (isTooDeep_mono sub) fun ⟨t, ht, long⟩ => ⟨t, sub.subset ht, long⟩

namespace Store

variable {s : Store} {q : MemoQuery} {written : MemoRow → Memo} {terms first second : List Term}
  {filter : Option String} {r : MemoRow} {memos : List Memo}

/-! ## Selected rows -/

/-- The rows that match a query and whose memos, as they were written, satisfy the terms, in order.
-/
def rowsFor (s : Store) (q : MemoQuery) (written : MemoRow → Memo) (terms : List Term) :
    List MemoRow :=
  ((s.rowsMatching q).filter fun r => terms.all fun t => decide (t.HoldsOf (written r))).mergeSort
    MemoRow.isBefore

theorem mem_rowsFor_iff : r ∈ s.rowsFor q written terms ↔
    r ∈ s.rowsMatching q ∧ (terms.all fun t => decide (t.HoldsOf (written r))) = true := by
  rw [rowsFor, List.mem_mergeSort, List.mem_filter]

theorem mem_memos_of_mem_rowsFor (h : r ∈ s.rowsFor q written terms) : r ∈ s.memos :=
  List.mem_of_mem_filter (mem_rowsFor_iff.1 h).1

theorem pairwise_rowsFor :
    (s.rowsFor q written terms).Pairwise fun r t => r.isBefore t = true :=
  List.pairwise_mergeSort MemoRow.isBefore_trans MemoRow.isBefore_total _

theorem nodup_id_rowsFor (hs : s.WellFormed) : ((s.rowsFor q written terms).map (·.id)).Nodup :=
  ((List.mergeSort_perm _ _).map _).nodup_iff.2
    (hs.ids.sublist ((List.filter_sublist.trans List.filter_sublist).map _))

/-- A selection that succeeds gives the rows for its terms. -/
theorem select_eq_rowsFor (made : ∀ r ∈ s.memos, r = .ofMemo r.id (written r))
    (h : ∃ rows, s.select q terms = .ok rows) :
    s.select q terms = .ok (s.rowsFor q written terms) := by
  rcases select_cases made q terms with selected | ⟨-, reason, refused⟩
  · exact selected
  · obtain ⟨rows, selected⟩ := h
    rw [refused] at selected
    cases selected

/-- Rows of a store that are in order are given by what is among them. -/
theorem WellFormed.eq_of_perm (hs : s.WellFormed) {rows rows' : List MemoRow}
    (stored : ∀ r ∈ rows, r ∈ s.memos) (ordered : rows.Pairwise fun r t => r.isBefore t = true)
    (ordered' : rows'.Pairwise fun r t => r.isBefore t = true) (same : rows.Perm rows') :
    rows = rows' :=
  List.Perm.eq_of_pairwise (fun r t hr ht before after =>
    hs.eq_of_id (stored r hr) (stored t (same.mem_iff.2 ht))
      (MemoRow.id_eq_of_isBefore before after)) ordered ordered' same

/-- **The rows for two lists of terms** are those for the first that satisfy the second as well. -/
theorem rowsFor_append (hs : s.WellFormed) : s.rowsFor q written (first ++ second) =
    (s.rowsFor q written first).filter
      fun r => second.all fun t => decide (t.HoldsOf (written r)) := by
  refine hs.eq_of_perm (fun r => mem_memos_of_mem_rowsFor) pairwise_rowsFor
    (pairwise_rowsFor.sublist List.filter_sublist) ((List.mergeSort_perm _ _).trans ?_)
  have kept := (List.mergeSort_perm ((s.rowsMatching q).filter
    fun r => first.all fun t => decide (t.HoldsOf (written r))) MemoRow.isBefore).symm.filter
      fun r => second.all fun t => decide (t.HoldsOf (written r))
  rw [List.filter_filter] at kept
  simpa only [rowsFor, List.all_append, Bool.and_comm] using kept

/-- A row is among some rows just if its memo is among theirs. -/
theorem memo_mem_iff (hs : s.WellFormed) {rows : List MemoRow} (stored : ∀ r ∈ rows, r ∈ s.memos)
    (hr : r ∈ s.memos) : r.memo ∈ rows.map MemoRow.memo ↔ r ∈ rows := by
  refine ⟨fun h => ?_, List.mem_map_of_mem⟩
  obtain ⟨t, among, same⟩ := List.mem_map.1 h
  rwa [← hs.eq_of_id (stored t among) hr (congrArg Memo.id same)]

/-- The memos of the rows for two lists of terms. -/
theorem map_memo_rowsFor_append (hs : s.WellFormed) :
    (s.rowsFor q written (first ++ second)).map MemoRow.memo =
      ((s.rowsFor q written first).map MemoRow.memo).filter
        (· ∈ (s.rowsFor q written second).map MemoRow.memo) := by
  rw [rowsFor_append hs, List.filter_map]
  congr 1
  refine List.filter_congr fun r hr => ?_
  have matching := (mem_rowsFor_iff.1 hr).1
  have among : r.memo ∈ (s.rowsFor q written second).map MemoRow.memo ↔ _ :=
    memo_mem_iff hs (fun r => mem_memos_of_mem_rowsFor) (mem_memos_of_mem_rowsFor hr)
  rw [Bool.eq_iff_iff]
  simp [among, mem_rowsFor_iff, matching]

/-! ## Answers -/

/-- A query lists the memos of the rows for its terms, or the database refuses it. -/
theorem listMemos_rowsFor (hs : ∀ r ∈ s.memos, r = .ofMemo r.id (written r)) {f : String}
    (parsed : parseFilter f = .ok terms) :
    s.listMemos { q with filter := some f } =
        .ok ((s.rowsFor q written terms).map MemoRow.memo) ∨
      q.ExceedsLimits terms ∧
        ∃ reason, s.listMemos { q with filter := some f } = .error (.database reason) := by
  have parsed : ({ q with filter := some f } : MemoQuery).terms = .ok terms := parsed
  rw [listMemos_of_terms parsed]
  rcases select_cases hs { q with filter := some f } terms with selected | ⟨limits, reason, refused⟩
  · exact .inl (by rw [selected]; rfl)
  · exact .inr ⟨limits, reason, by rw [refused]; rfl⟩

/-- **Filters compose by intersection.** The terms of two filters with white space between them are
those of the first and then those of the second, if the first closes its quotes. After any
operations, the memos listed for both are those listed for the first that are also listed for the
second, in the same order; the database may refuse the filters if together they are beyond its
limits, and it lists memos for each of them if they are not. -/
theorem run_narrows (ops : List Operation) (q : MemoQuery) {a b : String} {w : Char}
    (even : Even (a.toList.count '"')) (blank : isBlank w = true) :
    (∀ terms, parseFilter (a ++ String.singleton w ++ b) = .ok terms ↔
      ∃ first second, parseFilter a = .ok first ∧ parseFilter b = .ok second ∧
        terms = first ++ second) ∧
    ∀ first second, parseFilter a = .ok first → parseFilter b = .ok second →
      (∀ all others, (run ops).listMemos { q with filter := some a } = .ok all →
        (run ops).listMemos { q with filter := some b } = .ok others →
        (run ops).listMemos { q with filter := some (a ++ String.singleton w ++ b) } =
            .ok (all.filter (· ∈ others)) ∨
          q.ExceedsLimits (first ++ second) ∧ ∃ reason,
            (run ops).listMemos { q with filter := some (a ++ String.singleton w ++ b) } =
              .error (.database reason)) ∧
      (¬q.ExceedsLimits (first ++ second) → ∃ all others,
        (run ops).listMemos { q with filter := some a } = .ok all ∧
        (run ops).listMemos { q with filter := some b } = .ok others ∧
        (run ops).listMemos { q with filter := some (a ++ String.singleton w ++ b) } =
          .ok (all.filter (· ∈ others))) := by
  have parts (terms : List Term) : parseFilter (a ++ String.singleton w ++ b) = .ok terms ↔
      ∃ first second, parseFilter a = .ok first ∧ parseFilter b = .ok second ∧
        terms = first ++ second := by
    simp only [parseFilter_eq_ok_iff, parse_append_iff even blank]
  refine ⟨parts, fun first second ha hb => ?_⟩
  have hs := (run_consistent ops).wellFormed
  have made := run_isMade ops
  have : Nonempty Memo := ⟨draft⟩
  choose! written hwritten using made
  have listA := listMemos_rowsFor (q := q) hwritten ha
  have listB := listMemos_rowsFor (q := q) hwritten hb
  have both := listMemos_rowsFor (q := q) hwritten ((parts _).2 ⟨first, second, ha, hb, rfl⟩)
  rw [map_memo_rowsFor_append hs] at both
  constructor
  · intro all others hall hothers
    rw [hall] at listA
    rw [hothers] at listB
    rcases listA with e | ⟨-, reason, refused⟩
    · rcases listB with e' | ⟨-, reason, refused⟩
      · cases e
        cases e'
        exact both
      · cases refused
    · cases refused
  · intro within
    have withinA := fun h => within (MemoQuery.ExceedsLimits.mono (List.sublist_append_left _ _) h)
    have withinB := fun h => within (MemoQuery.ExceedsLimits.mono (List.sublist_append_right _ _) h)
    exact ⟨_, _, listA.resolve_right (withinA ·.1), listB.resolve_right (withinB ·.1),
      both.resolve_right (within ·.1)⟩

/-- A phrase and a tag, each of which lists the tagged memo. -/
theorem run_narrows_filed :
    parseFilter "\"plain\"\ttag:x" = .ok [.content "plain", .tag "x"] ∧
      ∃ all others, (run filed).listMemos { filter := some "\"plain\"" } = .ok all ∧
        (run filed).listMemos { filter := some "tag:x" } = .ok others ∧
        (run filed).listMemos { filter := some "\"plain\"\ttag:x" } =
          .ok (all.filter (· ∈ others)) := by
  have even : Even ("\"plain\"".toList.count '"') := by decide
  have blank : isBlank '\t' = true := by decide
  have first : parseFilter "\"plain\"" = .ok [.content "plain"] := by rfl
  have second : parseFilter "tag:x" = .ok [.tag "x"] := by rfl
  have text : "\"plain\"" ++ String.singleton '\t' ++ "tag:x" = "\"plain\"\ttag:x" := by decide
  obtain ⟨parts, lists⟩ := run_narrows (b := "tag:x") filed {} even blank
  rw [text] at parts lists
  refine ⟨(parts _).2 ⟨_, _, first, second, rfl⟩, (lists _ _ first second).2 ?_⟩
  rintro (deep | ⟨t, ht, long⟩)
  · rw [MemoQuery.isTooDeep_eq_false (by decide)] at deep
    cases deep
  · revert t
    decide

/-! ## Beyond the limits -/

/-- The database takes some hundred words. -/
theorem exists_listMemos_words (made : ∀ r ∈ s.memos, r.IsMade) {n : Nat} (few : n ≤ 900)
    (q : MemoQuery) : ∃ all, s.listMemos { q with filter := some (words n) } = .ok all := by
  have : Nonempty Memo := ⟨draft⟩
  choose! written hwritten using made
  have parsed := parseFilter_eq_ok_iff.2 (parse_words n)
  rcases listMemos_rowsFor (q := q) hwritten parsed with listed | ⟨deep | ⟨t, ht, long⟩, -⟩
  · exact ⟨_, listed⟩
  · rw [MemoQuery.isTooDeep_eq_false (by rwa [List.length_replicate])] at deep
    cases deep
  · rw [List.eq_of_mem_replicate ht] at long
    exact absurd long (by decide)

/-- The database takes no thousand words, even if they come from two filters. -/
theorem listMemos_words_append {m n : Nat} (many : 1000 ≤ m + n) (q : MemoQuery) :
    s.listMemos { q with filter := some (words m ++ String.singleton ' ' ++ words n) } =
      .error (.database "Expression tree is too large (maximum depth 1000)") := by
  have both : ({ q with filter := some (words m ++ String.singleton ' ' ++ words n) } :
      MemoQuery).terms = .ok (List.replicate m (Term.content "x") ++
        List.replicate n (Term.content "x")) :=
    parseFilter_eq_ok_iff.2 <| (parse_append_iff (even_words m) (by decide)).2
      ⟨_, _, parse_words m, parse_words n, rfl⟩
  rw [listMemos_of_terms both, select_of_isTooDeep (MemoQuery.isTooDeep_eq_true (by simpa))]
  rfl

/-- Some hundred words are a filter that lists memos, but with themselves behind them they are more
than the database takes. -/
theorem run_narrows_refused :
    Even ((words 600).toList.count '"') ∧ isBlank ' ' = true ∧
      (∃ all, (run filed).listMemos { filter := some (words 600) } = .ok all) ∧
      (run filed).listMemos { filter := some (words 600 ++ String.singleton ' ' ++ words 600) } =
        .error (.database "Expression tree is too large (maximum depth 1000)") :=
  ⟨even_words 600, by decide, exists_listMemos_words (run_isMade filed) (by decide) {},
    listMemos_words_append (by decide) {}⟩

end Store

end MemoTransfer
