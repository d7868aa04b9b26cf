import Mathlib.Data.List.TakeWhile
import MemoTransfer.Proofs.Json.Relaxed
import MemoTransfer.Proofs.Store.Lookups
import MemoTransfer.Proofs.Store.Sound

/-!
# What a query selects

Rows that were written from memos with finite coordinates hold what the memos say, and so do the
payloads among them in the eyes of the relaxed reader, which looks for tags in their text
(`payloadHasTag?_write`). Hence a query selects the rows whose memos satisfy its terms, in order,
and no other ones (`Store.select_eq`), unless it is more than the database can take
(`Store.select_cases`).
-/

namespace MemoTransfer

open MemoTransfer.Json MemoTransfer.Number MemoTransfer.Query

/-! ## Tags of a written payload -/

namespace Payload

theorem fits (p : Payload) (depth : Nat) : p.toJson.Fits (depth + 2) := by
  obtain ⟨tags, property, location⟩ := p
  have texts : (Value.texts tags).Fits (depth + 1) := by
    refine .list fun v hv => ?_
    obtain ⟨s, -, rfl⟩ := List.mem_map.1 hv
    exact .text _ _
  have flags : property.toJson.Fits (depth + 1) := by
    refine .object fun m hm => ?_
    fin_cases hm <;> exact .boolean _ _
  have place : ∀ l : Location, l.toJson.Fits (depth + 1) := by
    intro l
    refine .object fun m hm => ?_
    fin_cases hm
    · exact .text _ _
    · exact .floating _ _
    · exact .floating _ _
  refine .object fun m hm => ?_
  rcases List.mem_append.1 hm with hm | hm
  · fin_cases hm
    · exact texts
    · exact flags
  · cases location with
    | none => cases hm
    | some l =>
      rw [List.mem_singleton.1 hm]
      exact place l

end Payload

/-- **A stored payload has the tags that were written.** -/
theorem payloadHasTag?_write (p : Payload) (name : String) :
    payloadHasTag? p.write name = some (decide (name ∈ p.tags)) := by
  have fits : p.toJson.Fits payloadDepth := p.fits 998
  have whole : p.write.toList.takeWhile (· ≠ '\x00') = p.toJson.chars .compact 0 := by
    rw [Payload.write, Value.compact, String.toList_ofList, List.takeWhile_eq_self_iff]
    intro c hc
    have := Value.le_toNat_of_mem_chars fits 0 c hc
    rw [decide_eq_true_eq]
    rintro rfl
    exact absurd this (by decide)
  have tags : (Relaxed.ofValue p.toJson).member? "tags" =
      some (.list (p.tags.map fun s => .text (.ofText s))) := by
    have first : (Spelled.ofText "tags").names "tags" = true := by decide
    have list : Relaxed.ofValue (.texts p.tags) =
        .list (p.tags.map fun s => .text (.ofText s)) := by
      rw [Value.texts, Relaxed.ofValue, Relaxed.ofItems_eq_map, List.map_map]
      rfl
    rw [Payload.toJson, Relaxed.ofValue, Relaxed.ofMembers_eq_map, Relaxed.member?,
      List.cons_append, List.map_cons, List.find?_cons_of_pos (by exact first), Option.map_some,
      list]
  have among : ∀ items : List String, (items.map fun s => Relaxed.text (.ofText s)).anyM
      (·.isTextual? name) = some (decide (name ∈ items)) := by
    intro items
    induction items with
    | nil => rfl
    | cons s items ih =>
      rw [List.map_cons, List.anyM_cons, Relaxed.isTextual?, Spelled.isText_ofText, ih]
      by_cases h : s = name
      · simp [h]
      · simp [h, Ne.symm h]
  unfold payloadHasTag?
  rw [whole, Relaxed.read?_chars fits]
  simp only [Option.bind_eq_bind, Option.bind_some, tags]
  exact among p.tags

/-! ## Terms -/

namespace Query.Term

/-- The memo satisfies the term. -/
def HoldsOf (m : Memo) : Term → Prop
  | tag name => name ∈ m.payload.tags
  | visibility v => m.visibility = v
  | pinned p => m.pinned = p
  | createdAfter t => t < m.createdTs
  | createdBefore t => m.createdTs < t
  | content text =>
    Like.matchesAll (Like.seen (Like.containing text.toList)) (Like.seen m.content.toList) = true

instance (m : Memo) : (t : Term) → Decidable (t.HoldsOf m)
  | tag name => inferInstanceAs (Decidable (name ∈ m.payload.tags))
  | visibility v => inferInstanceAs (Decidable (m.visibility = v))
  | pinned p => inferInstanceAs (Decidable (m.pinned = p))
  | createdAfter t => inferInstanceAs (Decidable (t < m.createdTs))
  | createdBefore t => inferInstanceAs (Decidable (m.createdTs < t))
  | content _ => inferInstanceAs (Decidable (_ = true))

end Query.Term

/-- The row of a memo satisfies a term, tags and all, just if the memo does. -/
theorem exists_hasTag? (id : MemoId) (m : Memo) (t : Term) :
    ∃ tagged, (MemoRow.ofMemo id m).hasTag? t = some tagged ∧
      ((MemoRow.ofMemo id m).satisfies t && tagged) = decide (t.HoldsOf m) := by
  cases t with
  | tag name =>
    refine ⟨_, payloadHasTag?_write m.payload name, ?_⟩
    rw [MemoRow.satisfies, Bool.true_and]
    rfl
  | visibility v =>
    refine ⟨true, rfl, ?_⟩
    have injective : m.visibility.name = v.name ↔ m.visibility = v := by
      generalize m.visibility = w
      cases v <;> cases w <;> decide
    rw [Bool.and_true, MemoRow.satisfies, decide_eq_decide]
    exact injective
  | pinned p => exact ⟨true, rfl, Bool.and_true _⟩
  | createdAfter t => exact ⟨true, rfl, Bool.and_true _⟩
  | createdBefore t => exact ⟨true, rfl, Bool.and_true _⟩
  | content text =>
    refine ⟨true, rfl, ?_⟩
    rw [Bool.and_true]
    exact Bool.decide_eq_true.symm

theorem holdsOf_iff {r : MemoRow} {m : Memo} (made : r = .ofMemo r.id m) {t : Term} :
    t.HoldsOf m ↔ r.satisfies t = true ∧ r.hasTag? t = some true := by
  obtain ⟨tagged, found, holds⟩ := exists_hasTag? r.id m t
  rw [← made] at found holds
  rw [found, Option.some_inj, ← Bool.and_eq_true, holds, decide_eq_true_iff]

/-- The tags of a row that satisfies the other terms decide whether its memo satisfies all. -/
theorem exists_mapM_hasTag? (id : MemoId) (m : Memo) (terms : List Term) :
    ∃ tags, terms.mapM (MemoRow.ofMemo id m).hasTag? = some tags ∧
      (terms.all (MemoRow.ofMemo id m).satisfies && tags.all (·)) =
        terms.all fun t => decide (t.HoldsOf m) := by
  induction terms with
  | nil => exact ⟨[], rfl, rfl⟩
  | cons t terms ih =>
    obtain ⟨tagged, first, holds⟩ := exists_hasTag? id m t
    obtain ⟨tags, others, all⟩ := ih
    refine ⟨tagged :: tags, by rw [List.mapM_cons, first, others]; rfl, ?_⟩
    rw [List.all_cons, List.all_cons, List.all_cons, ← holds, ← all]
    cases (MemoRow.ofMemo id m).satisfies t <;> cases tagged <;> simp

theorem rowsWithTags?_eq {rows : List MemoRow} {written : MemoRow → Memo}
    (h : ∀ r ∈ rows, r = .ofMemo r.id (written r)) {terms : List Term}
    (others : ∀ r ∈ rows, terms.all r.satisfies = true) :
    rowsWithTags? terms rows =
      some (rows.filter fun r => terms.all fun t => decide (t.HoldsOf (written r))) := by
  induction rows with
  | nil => rfl
  | cons r rows ih =>
    rw [List.forall_mem_cons] at h others
    obtain ⟨tags, found, all⟩ := exists_mapM_hasTag? r.id (written r) terms
    rw [← h.1] at found all
    rw [others.1, Bool.true_and] at all
    rw [rowsWithTags?, found, ih h.2 others.2, List.filter_cons, ← all]
    rfl

/-! ## Selections -/

/-- The terms of the filter of a query. -/
def MemoQuery.terms (q : MemoQuery) : Except Error (List Term) :=
  (q.filter.map parseFilter).getD (.ok [])

namespace Store

variable {s : Store}

/-- All rows of memos were written from memos with finite coordinates. -/
def IsWritten (s : Store) : Prop := ∀ r ∈ s.memos, r.IsWritten

/-- The rows that match a query and whose memos satisfy the terms. -/
def rowsHolding (s : Store) (q : MemoQuery) (terms : List Term) : List MemoRow :=
  (s.rowsMatching q).filter fun r => terms.all fun t => decide (t.HoldsOf r.memo)

/-- The keys, the user and the status of a query are compared with the memo of a row. -/
theorem matches_iff {q : MemoQuery} {r : MemoRow} (made : r.IsMade) : r.matches q = true ↔
    (∀ id ∈ q.id, r.memo.id = id) ∧ (∀ uid ∈ q.uid, r.memo.uid = uid) ∧
      (∀ creator ∈ q.creatorId, r.memo.creatorId = creator) ∧
      ∀ status ∈ q.rowStatus, r.memo.rowStatus = status := by
  have named : ∀ status : RowStatus, status.name = r.rowStatus ↔ r.memo.rowStatus = status := by
    intro status
    rw [made.rowStatus_eq]
    cases status <;> cases r.memo.rowStatus <;> decide
  have key : ∀ {α : Type} {a b : α}, a = b ↔ b = a := ⟨Eq.symm, Eq.symm⟩
  simp only [MemoRow.matches, Bool.and_eq_true, Option.all_eq_true, decide_eq_true_eq, named,
    and_assoc]
  simp only [MemoRow.memo, key, Option.mem_def]

/-- The terms that are tried leave out no row whose memo satisfies all terms. -/
theorem filter_tried {written : MemoRow → Memo} (hs : ∀ r ∈ s.memos, r = .ofMemo r.id (written r))
    (q : MemoQuery) {tried terms : List Term} (sub : tried ⊆ terms) :
    ((s.memos.filter fun r => r.matches q && tried.all r.satisfies).filter
      fun r => !(q.excludeComments && s.isComment r.id)).filter
        (fun r => terms.all fun t => decide (t.HoldsOf (written r))) =
      (s.rowsMatching q).filter fun r => terms.all fun t => decide (t.HoldsOf (written r)) := by
  rw [rowsMatching, List.filter_filter, List.filter_filter, List.filter_filter]
  refine List.filter_congr fun r hr => ?_
  obtain ⟨tags, -, all⟩ := exists_mapM_hasTag? r.id (written r) terms
  rw [← hs r hr] at all
  rw [← all]
  cases satisfied : terms.all r.satisfies with
  | false => simp
  | true =>
    have : tried.all r.satisfies = true :=
      List.all_eq_true.2 fun t ht => List.all_eq_true.1 satisfied t (sub ht)
    rw [this]
    cases r.matches q <;> simp

/-- A condition that is too deep is refused. -/
theorem select_of_isTooDeep {q : MemoQuery} {terms : List Term} (deep : q.isTooDeep terms = true) :
    s.select q terms = .error (.database
      ("Expression tree is too large (maximum depth " ++ natText depthLimit ++ ")")) := by
  unfold select
  rw [deep]
  rfl

/-- If not all terms are tried, one of them looks for too long a text. -/
theorem exists_isTooLong {terms : List Term}
    (cut : (terms.takeWhile (!·.isTooLong)).length < terms.length) :
    ∃ t ∈ terms, t.isTooLong = true := by
  by_contra short
  push Not at short
  have whole : terms.takeWhile (!·.isTooLong) = terms := by
    rw [List.takeWhile_eq_self_iff]
    intro t ht
    rw [Bool.eq_false_iff.2 (short t ht), Bool.not_false]
  rw [whole] at cut
  exact Nat.lt_irrefl _ cut

/-- **What a selection comes to.** A query selects the rows whose memos, as they were written,
satisfy its terms, in order. The database may refuse a condition that is too deep and a text that is
too long. -/
theorem select_cases {written : MemoRow → Memo} (hs : ∀ r ∈ s.memos, r = .ofMemo r.id (written r))
    (q : MemoQuery) (terms : List Term) :
    s.select q terms = .ok (((s.rowsMatching q).filter fun r =>
        terms.all fun t => decide (t.HoldsOf (written r))).mergeSort MemoRow.isBefore) ∨
      (q.isTooDeep terms = true ∨ ∃ t ∈ terms, t.isTooLong = true) ∧
        ∃ reason, s.select q terms = .error (.database reason) := by
  cases deep : q.isTooDeep terms with
  | true => exact .inr ⟨.inl rfl, _, select_of_isTooDeep deep⟩
  | false =>
    generalize htried : terms.takeWhile (!·.isTooLong) = tried
    have kept := filter_tried hs q (htried ▸ List.takeWhile_subset _ : tried ⊆ terms)
    generalize hrows : (s.memos.filter fun r => r.matches q && tried.all r.satisfies) = rows
      at kept
    cases cut : decide (tried.length < terms.length) && !rows.isEmpty with
    | true =>
      have fewer := of_decide_eq_true (Bool.and_eq_true_iff.1 cut).1
      refine .inr ⟨.inr (exists_isTooLong (htried ▸ fewer)), "LIKE or GLOB pattern too complex", ?_⟩
      unfold select
      rw [deep]
      simp only [htried, hrows, cut]
      rfl
    | false =>
      refine .inl ?_
      -- the tags are looked up only of rows that satisfy all other terms
      have others : ∀ r ∈ rows, terms.all r.satisfies = true := by
        intro r hr
        rw [Bool.and_eq_false_iff, decide_eq_false_iff_not, Bool.not_eq_false'] at cut
        rcases cut with whole | none
        · have whole : tried = terms :=
            (htried ▸ List.takeWhile_prefix _ : tried <+: terms).eq_of_length_le
              (Nat.not_lt.1 whole)
          rw [← hrows, whole] at hr
          exact (Bool.and_eq_true_iff.1 (List.mem_filter.1 hr).2).2
        · rw [List.isEmpty_iff.1 none] at hr
          cases hr
      have withTags : rowsWithTags? terms (rows.filter
          fun r => !(q.excludeComments && s.isComment r.id)) =
            some ((s.rowsMatching q).filter fun r =>
              terms.all fun t => decide (t.HoldsOf (written r))) := by
        rw [← kept]
        refine rowsWithTags?_eq (fun r hr => ?_) fun r hr => others r (List.mem_of_mem_filter hr)
        exact hs r (List.mem_of_mem_filter (hrows ▸ List.mem_of_mem_filter hr))
      unfold select
      rw [deep]
      simp only [htried, hrows, cut, withTags]
      rfl

/-- The tags of rows that were made from memos can be looked up. -/
theorem exists_rowsWithTags? {rows : List MemoRow} (made : ∀ r ∈ rows, r.IsMade)
    (terms : List Term) : ∃ kept, rowsWithTags? terms rows = some kept := by
  induction rows with
  | nil => exact ⟨[], rfl⟩
  | cons r rows ih =>
    rw [List.forall_mem_cons] at made
    obtain ⟨m, e⟩ := made.1
    obtain ⟨kept, others⟩ := ih made.2
    obtain ⟨tags, found, -⟩ := exists_mapM_hasTag? r.id m terms
    rw [← e] at found
    rw [rowsWithTags?, found, others]
    exact ⟨_, rfl⟩

/-- **When a selection succeeds**: its condition is not too deep, and no row satisfies all terms
before one that looks for too long a text. -/
theorem exists_select_iff (made : ∀ r ∈ s.memos, r.IsMade) {q : MemoQuery} {terms : List Term} :
    (∃ rows, s.select q terms = .ok rows) ↔ q.isTooDeep terms = false ∧
      ((terms.takeWhile (!·.isTooLong)).length < terms.length → ∀ r ∈ s.memos,
        (r.matches q && (terms.takeWhile (!·.isTooLong)).all r.satisfies) = false) := by
  cases deep : q.isTooDeep terms with
  | true =>
    rw [select_of_isTooDeep deep]
    simp
  | false =>
    generalize htried : terms.takeWhile (!·.isTooLong) = tried
    have none_iff : (s.memos.filter fun r => r.matches q && tried.all r.satisfies).isEmpty = true ↔
        ∀ r ∈ s.memos, (r.matches q && tried.all r.satisfies) = false := by
      simp [List.filter_eq_nil_iff]
    rw [← none_iff]
    have candidates : ∀ r ∈ (s.memos.filter fun r => r.matches q && tried.all r.satisfies).filter
        fun r => !(q.excludeComments && s.isComment r.id), r.IsMade :=
      fun r hr => made r (List.mem_of_mem_filter (List.mem_of_mem_filter hr))
    obtain ⟨kept, looked⟩ := exists_rowsWithTags? candidates terms
    have outcome : s.select q terms = if (decide (tried.length < terms.length) &&
        !(s.memos.filter fun r => r.matches q && tried.all r.satisfies).isEmpty) = true then
          .error (.database "LIKE or GLOB pattern too complex")
        else .ok (kept.mergeSort MemoRow.isBefore) := by
      unfold select
      rw [deep]
      simp only [htried, looked]
      cases decide (tried.length < terms.length) &&
        !(s.memos.filter fun r => r.matches q && tried.all r.satisfies).isEmpty <;> rfl
    rw [outcome]
    split
    · rename_i refused
      rw [Bool.and_eq_true, decide_eq_true_eq, Bool.not_eq_true'] at refused
      simp [refused]
    · rename_i accepted
      rw [Bool.and_eq_true, decide_eq_true_eq, not_and, Bool.not_eq_true', Bool.not_eq_false]
        at accepted
      simpa using accepted

/-- A selection that succeeds also succeeds on fewer rows. -/
theorem exists_select_of_subset {t : Store} (made : ∀ r ∈ s.memos, r.IsMade)
    (fewer : t.memos ⊆ s.memos) {q : MemoQuery} {terms : List Term}
    (h : ∃ rows, s.select q terms = .ok rows) : ∃ rows, t.select q terms = .ok rows := by
  rw [exists_select_iff made] at h
  rw [exists_select_iff fun r hr => made r (fewer hr)]
  exact ⟨h.1, fun cut r hr => h.2 cut r (fewer hr)⟩

/-- **A query selects the rows whose memos satisfy its terms**, in order, if its condition is not
too deep and none of its texts is too long. -/
theorem select_eq (hs : s.IsWritten) {q : MemoQuery} {terms : List Term}
    (shallow : q.isTooDeep terms = false) (short : ∀ t ∈ terms, t.isTooLong = false) :
    s.select q terms = .ok ((s.rowsHolding q terms).mergeSort MemoRow.isBefore) := by
  have written : ∀ r ∈ s.memos, r = .ofMemo r.id r.memo := fun r hr =>
    (hs r hr).ofMemo_memo.symm
  rcases select_cases written q terms with h | ⟨deep | ⟨t, ht, long⟩, -⟩
  · exact h
  · rw [shallow] at deep
    cases deep
  · rw [short t ht] at long
    cases long

theorem listMemos_of_terms {q : MemoQuery} {terms : List Term} (parsed : q.terms = .ok terms) :
    s.listMemos q = (s.select q terms).map (List.map MemoRow.memo) := by
  rw [listMemos, ← MemoQuery.terms, parsed]
  show (s.select q terms >>= fun rows => pure (rows.map MemoRow.memo)) = _
  cases s.select q terms <;> rfl

end Store

end MemoTransfer
