import MemoTransfer.Proofs.Query.Like
import MemoTransfer.Proofs.Transfer.Exactness

/-!
# What a query lists

Whatever operations do, each row of a memo was made from a memo (`Store.run_isMade`), so that its
status and visibility are names and its payload is a written one. A query whose filter is absent or
a list of terms therefore lists the memos of the rows that it asks for (`Store.Suits`), each once
and in order, and no other ones; otherwise its filter is beyond the limits of the database, and it
fails with an error of the database (`Store.run_listMemos`).

The coordinates of a payload need not be finite here. A payload with other ones is written, and
reads as the empty payload; but its tags are looked up in what is written.
-/

namespace MemoTransfer

open MemoTransfer.Query

/-! ## Rows that operations make -/

namespace Store

variable {s t : Store}

theorem Alters.isMade (hs : ∀ r ∈ s.memos, r.IsMade) (h : s.Alters t) :
    ∀ r ∈ t.memos, r.IsMade := by
  cases h with
  | unchanged => exact hs
  | user _ => exact hs
  | memo _ _ =>
    intro r hr
    rcases List.mem_append.1 hr with hr | hr
    · exact hs r hr
    · rw [List.mem_singleton.1 hr]
      exact MemoRow.isMade_ofMemo _ _
  | patched p =>
    intro r hr
    obtain ⟨r, among, rfl⟩ := List.mem_map.1 hr
    split
    · exact (hs r among).patch p
    · exact hs r among
  | removed id => exact fun r hr => hs r (List.mem_of_mem_filter hr)
  | attachment _ _ => exact hs
  | relation _ _ => exact hs
  | setting name value =>
    obtain ⟨settings, h⟩ := s.setSetting_eq name value
    rw [h]
    exact hs

theorem Leads.isMade (hs : ∀ r ∈ s.memos, r.IsMade) (h : s.Leads t) :
    ∀ r ∈ t.memos, r.IsMade := by
  induction h with
  | refl => exact hs
  | tail _ step ih => exact step.isMade ih

/-- **All rows that operations lead to were made from memos.** -/
theorem run_isMade (ops : List Operation) : ∀ r ∈ (run ops).memos, r.IsMade :=
  (afterAll_leads .empty ops).isMade fun _ hr => absurd hr List.not_mem_nil

end Store

/-! ## What a query asks for -/

namespace Query.Term

/-- The term looks for no text with a null character. -/
def IsPlain : Term → Prop
  | content text => '\x00' ∉ text.toList
  | _ => True

instance : (t : Term) → Decidable t.IsPlain
  | content text => inferInstanceAs (Decidable ('\x00' ∉ text.toList))
  | tag _ | visibility _ | pinned _ | createdAfter _ | createdBefore _ => isTrue trivial

/-- The memo of the row meets the term. Its tags are those of the payload that was written. -/
def Meets (r : MemoRow) : Term → Prop
  | tag name => ∃ p : Payload, r.payload = p.write ∧ name ∈ p.tags
  | visibility v => r.memo.visibility = v
  | pinned p => r.memo.pinned = p
  | createdAfter t => t < r.memo.createdTs
  | createdBefore t => r.memo.createdTs < t
  | content text => Like.Occurs (Like.seen text.toList) (Like.seen r.memo.content.toList)

theorem meets_tag_iff {r : MemoRow} {p : Payload} (wrote : r.payload = p.write) {name : String} :
    (tag name).Meets r ↔ name ∈ p.tags := by
  refine ⟨?_, fun among => ⟨p, wrote, among⟩⟩
  rintro ⟨p', wrote', among⟩
  have tagged := payloadHasTag?_write p name
  rw [← wrote, wrote', payloadHasTag?_write, Option.some_inj, decide_eq_decide] at tagged
  exact tagged.1 among

/-- A row that was made from a memo meets a term just if the memo satisfies it. -/
theorem meets_iff {r : MemoRow} {m : Memo} (made : r = .ofMemo r.id m) {t : Term}
    (plain : t.IsPlain) : t.Meets r ↔ t.HoldsOf m := by
  rw [made]
  cases t with
  | tag name => exact meets_tag_iff rfl
  | visibility v =>
    rw [Meets, HoldsOf]
    simp [MemoRow.memo, MemoRow.ofMemo, Visibility.ofName?_name]
  | pinned p => exact Iff.rfl
  | createdAfter t => exact Iff.rfl
  | createdBefore t => exact Iff.rfl
  | content text =>
    rw [HoldsOf, Like.seen_containing plain, Like.matchesAll_containing]
    exact Iff.rfl

end Query.Term

namespace Store

variable {s : Store} {q : MemoQuery} {terms : List Term}

/-- The query with the terms of its filter asks for the row. -/
structure Suits (s : Store) (q : MemoQuery) (terms : List Term) (r : MemoRow) : Prop where
  stored : r ∈ s.memos
  id : ∀ id ∈ q.id, r.memo.id = id
  uid : ∀ uid ∈ q.uid, r.memo.uid = uid
  creator : ∀ creator ∈ q.creatorId, r.memo.creatorId = creator
  status : ∀ status ∈ q.rowStatus, r.memo.rowStatus = status
  /-- It is no comment on another memo, if comments are left out. -/
  original : q.excludeComments = true →
    ∀ relation ∈ s.relations, relation.memoId = r.memo.id → relation.kind ≠ .comment
  meets : ∀ t ∈ terms, t.Meets r

/-- The memos are those of the rows that the query asks for, in order. -/
structure Lists (s : Store) (q : MemoQuery) (terms : List Term) (rows : List MemoRow)
    (memos : List Memo) : Prop where
  suited : ∀ r, r ∈ rows ↔ s.Suits q terms r
  memos_eq : memos = rows.map MemoRow.memo
  /-- They are strictly in the order of their creation and then of their numbers, so that none of
  them comes twice. -/
  ordered : memos.Pairwise Memo.Precedes

theorem Lists.mem {rows : List MemoRow} {memos : List Memo} {r : MemoRow}
    (h : s.Lists q terms rows memos) (suits : s.Suits q terms r) : r.memo ∈ memos := by
  rw [h.memos_eq]
  exact List.mem_map_of_mem ((h.suited r).2 suits)

theorem mem_rowsMatching_filter_iff {written : MemoRow → Memo}
    (hs : ∀ r ∈ s.memos, r = .ofMemo r.id (written r)) (plain : ∀ t ∈ terms, t.IsPlain)
    (r : MemoRow) :
    r ∈ (s.rowsMatching q).filter (fun r => terms.all fun t => decide (t.HoldsOf (written r))) ↔
      s.Suits q terms r := by
  have original : (!(q.excludeComments && s.isComment r.id)) = true ↔ (q.excludeComments = true →
      ∀ relation ∈ s.relations, relation.memoId = r.memo.id → relation.kind ≠ .comment) := by
    rw [← isComment_eq_false_iff]
    cases q.excludeComments <;> simp [MemoRow.memo]
  rw [rowsMatching, List.mem_filter, List.mem_filter, Bool.and_eq_true, original,
    List.all_eq_true]
  constructor
  · rintro ⟨⟨hr, matching, original⟩, holds⟩
    obtain ⟨id, uid, creator, status⟩ := (matches_iff ⟨written r, hs r hr⟩).1 matching
    exact ⟨hr, id, uid, creator, status, original, fun t ht =>
      (Term.meets_iff (hs r hr) (plain t ht)).2 (of_decide_eq_true (holds t ht))⟩
  · intro suits
    have made := hs r suits.stored
    exact ⟨⟨suits.stored, (matches_iff ⟨written r, made⟩).2
      ⟨suits.id, suits.uid, suits.creator, suits.status⟩, suits.original⟩, fun t ht =>
      decide_eq_true ((Term.meets_iff made (plain t ht)).1 (suits.meets t ht))⟩

/-- A filter that is no list of terms is refused as such. -/
theorem listMemos_of_fault {e : Error} (fault : q.terms = .error e) :
    ∃ reason, e = .invalidFilter reason ∧ s.listMemos q = .error e := by
  have listed : s.listMemos q = .error e := by
    rw [listMemos, ← MemoQuery.terms, fault]
    rfl
  rw [MemoQuery.terms] at fault
  cases hf : q.filter with
  | none =>
    rw [hf] at fault
    cases fault
  | some f =>
    rw [hf, Option.map_some, Option.getD_some, parseFilter] at fault
    cases hp : parse f with
    | ok terms =>
      rw [hp] at fault
      cases fault
    | error fault' =>
      rw [hp] at fault
      cases fault
      exact ⟨fault'.message, rfl, listed⟩

/-- The answer of a query lists the rows that it asks for, or the database refuses it. -/
theorem listMemos_cases (hs : s.WellFormed) (made : ∀ r ∈ s.memos, r.IsMade)
    (parsed : q.terms = .ok terms) (plain : ∀ t ∈ terms, t.IsPlain) :
    (∃ rows memos, s.listMemos q = .ok memos ∧ s.Lists q terms rows memos) ∨
      (q.isTooDeep terms = true ∨ ∃ t ∈ terms, t.isTooLong = true) ∧
        ∃ reason, s.listMemos q = .error (.database reason) := by
  have : Nonempty Memo := ⟨draft⟩
  choose! written hwritten using made
  rw [listMemos_of_terms parsed]
  rcases select_cases hwritten q terms with selected | ⟨limits, reason, refused⟩
  · refine .inl ⟨_, _, by rw [selected]; rfl, fun r => ?_, rfl, ?_⟩
    · rw [List.mem_mergeSort]
      exact mem_rowsMatching_filter_iff hwritten plain r
    · refine pairwise_precedes ?_
        (List.pairwise_mergeSort MemoRow.isBefore_trans MemoRow.isBefore_total _)
      refine (((List.mergeSort_perm _ _).map _).nodup_iff).2 (hs.ids.sublist ?_)
      exact (List.filter_sublist.trans List.filter_sublist).map _
  · exact .inr ⟨limits, reason, by rw [refused]; rfl⟩

/-! ## Queries after any operations -/

/-- **A query lists what it asks for.** After any operations, a query whose filter is absent or a
list of terms lists the memos of the rows that it asks for, each once and in order, and no other
ones; or its filter is beyond the limits of the database, which refuses it. A filter that is no list
of terms is refused as such. A query for one memo gives the first one that is listed, or fails in
the same way. -/
theorem run_listMemos (ops : List Operation) (q : MemoQuery) :
    (∀ terms, q.terms = .ok terms → (∀ t ∈ terms, t.IsPlain) →
      (∃ rows memos, (run ops).listMemos q = .ok memos ∧
        (run ops).getMemo q = .ok memos.head? ∧ (run ops).Lists q terms rows memos) ∨
      (q.isTooDeep terms = true ∨ ∃ t ∈ terms, t.isTooLong = true) ∧
        ∃ reason, (run ops).listMemos q = .error (.database reason) ∧
          (run ops).getMemo q = .error (.database reason)) ∧
    ∀ e, q.terms = .error e → ∃ reason, e = .invalidFilter reason ∧
      (run ops).listMemos q = .error e ∧ (run ops).getMemo q = .error e := by
  have hs := (run_consistent ops).wellFormed
  have first {x : Except Error (List Memo)} (listed : (run ops).listMemos q = x) :
      (run ops).getMemo q = x.map List.head? := congrArg (Except.map List.head?) listed
  constructor
  · intro terms parsed plain
    rcases listMemos_cases hs (run_isMade ops) parsed plain with
      ⟨rows, memos, listed, lists⟩ | ⟨limits, reason, refused⟩
    · exact .inl ⟨rows, memos, listed, first listed, lists⟩
    · exact .inr ⟨limits, reason, refused, first refused⟩
  · intro e fault
    obtain ⟨reason, invalid, refused⟩ := listMemos_of_fault (s := run ops) fault
    exact ⟨reason, invalid, refused, first refused⟩

/-- The query for the memos of the first user that have a tag and are no comments. -/
def taggedQuery (tag : String) : MemoQuery :=
  { creatorId := some 1, filter := some ("tag:" ++ tag), excludeComments := true }

/-- The tagged memo is listed; a tag without a name is refused. -/
theorem run_listMemos_tagged :
    (∃ memos, (run filed).listMemos (taggedQuery "x") = .ok memos ∧
      (run filed).getMemo (taggedQuery "x") = .ok memos.head? ∧ tagged ∈ memos) ∧
    ∃ reason, (run filed).listMemos (taggedQuery "") = .error (.invalidFilter reason) := by
  have parsed : (taggedQuery "x").terms = .ok [.tag "x"] := by rfl
  have plain : ∀ t ∈ [Term.tag "x"], t.IsPlain := by
    rw [List.forall_mem_singleton]
    trivial
  have fault : (taggedQuery "").terms = .error (.invalidFilter "tag requires a value") := by rfl
  constructor
  · rcases (run_listMemos filed (taggedQuery "x")).1 _ parsed plain with
      ⟨rows, memos, listed, first, lists⟩ | ⟨deep | ⟨t, ht, long⟩, -⟩
    · have row : MemoRow.ofMemo 1 tagged ∈ (run filed).memos := List.mem_singleton.2 rfl
      have suits : (run filed).Suits (taggedQuery "x") [.tag "x"] (.ofMemo 1 tagged) := by
        refine ⟨row, nofun, nofun, fun creator h => ?_, nofun, nofun, ?_⟩
        · cases h
          rfl
        · rw [List.forall_mem_singleton]
          exact ⟨tagged.payload, rfl, List.mem_singleton.2 rfl⟩
      exact ⟨memos, listed, first, memo_tagged ▸ lists.mem suits⟩
    · cases deep
    · rw [List.mem_singleton.1 ht] at long
      cases long
  · obtain ⟨reason, invalid, refused, -⟩ := (run_listMemos filed (taggedQuery "")).2 _ fault
    exact ⟨reason, invalid ▸ refused⟩

/-- A user with a memo whose content is no character. -/
def blurred : List Operation :=
  [.table (.createUser "alice"), .table (.createMemo { draft with content := "\uffff" })]

/-- The memo of `blurred` is listed for a text that it does not contain. -/
theorem listMemos_blurred : ∃ memos,
    (run blurred).listMemos { filter := some "\ufffd" } = .ok memos ∧
      ∃ m ∈ memos, m.content = "\uffff" := by
  have parsed : ({ filter := some "\ufffd" } : MemoQuery).terms = .ok [.content "\ufffd"] := by rfl
  have plain : ∀ t ∈ [Term.content "\ufffd"], t.IsPlain := by
    rw [List.forall_mem_singleton]
    decide
  have hs := (run_consistent blurred).wellFormed
  rcases listMemos_cases hs (run_isMade blurred) parsed plain with
    ⟨rows, memos, listed, lists⟩ | ⟨deep | ⟨t, ht, long⟩, -⟩
  · have row : MemoRow.ofMemo 1 { draft with content := "\uffff" } ∈ (run blurred).memos :=
      List.mem_singleton.2 rfl
    refine ⟨memos, listed, _, lists.mem ⟨row, nofun, nofun, nofun, nofun, nofun, ?_⟩, rfl⟩
    rw [List.forall_mem_singleton]
    exact ⟨[], ['\ufffd'], [], by decide, .cons (by decide) .nil⟩
  · cases deep
  · rw [List.mem_singleton.1 ht] at long
    cases long

/-- The database takes no thousand terms, though they are terms; and it takes the last code point of
the first plane for the replacement character. -/
theorem run_listMemos_refused :
    (((wordy 1000).query 1).terms = .ok (List.replicate 1000 (.content "x")) ∧
      (∀ t ∈ List.replicate 1000 (Term.content "x"), t.IsPlain) ∧
      (run filed).listMemos ((wordy 1000).query 1) =
        .error (.database "Expression tree is too large (maximum depth 1000)")) ∧
    (∃ memos, (run blurred).listMemos { filter := some "\ufffd" } = .ok memos ∧
      ∃ m ∈ memos, m.content = "\uffff") ∧
    ¬Like.Occurs ['\ufffd'] ['\uffff'] := by
  have parsed := terms_query (terms_wordy (n := 1000) (by decide)) 1
  have refused := (run filed).select_of_isTooDeep (isTooDeep_wordy (n := 1000) (by decide) 1)
  refine ⟨⟨parsed, fun t ht => ?_, ?_⟩, listMemos_blurred, ?_⟩
  · rw [List.eq_of_mem_replicate ht]
    decide
  · rw [listMemos_of_terms parsed, refused]
    rfl
  · rintro ⟨before, among, after, e, letters⟩
    obtain ⟨c, rest, same, -, rfl⟩ := List.forall₂_cons_left_iff.1 letters
    have : c ∈ ['\uffff'] := by
      rw [e]
      exact List.mem_append_right _ List.mem_cons_self
    rw [List.mem_singleton.1 this] at same
    exact absurd same (by decide)

end Store

end MemoTransfer
