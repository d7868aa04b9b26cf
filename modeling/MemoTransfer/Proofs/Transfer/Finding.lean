import MemoTransfer.Proofs.Content.Tags
import MemoTransfer.Proofs.Query.Depth
import MemoTransfer.Proofs.Query.Printing
import MemoTransfer.Proofs.Transfer.Authoring
import MemoTransfer.Proofs.Transfer.Querying
import MemoTransfer.Proofs.Transfer.Splitting
import MemoTransfer.Proofs.Transfer.Verdicts

/-!
# Finding a memo by its tags

The characters of a tag mean nothing to a filter, so that the key of a tag with any tag behind it is
a single term, with a number sign or without (`parseFilter_tag`). Whatever else is stored, a query
for this term lists a memo just if the tag is among those of its payload (`Store.foundBy_of_row`).
So a memo that a user writes, or that an import creates, is found by the tags of its text and by no
other ones (`Store.run_finds_tags`).
-/

namespace MemoTransfer

open MemoTransfer.Content MemoTransfer.Query MemoTransfer.Text

/-! ## Tags in a filter -/

namespace Query

variable {t : String} {cs : List Char}

theorem isSolid_of_isTag (tag : IsTag t) : IsSolid t.toList := by
  intro c hc
  have inTag := tag.2 c hc
  constructor
  · rw [← Bool.not_eq_true]
    intro blank
    rw [isTagChar_eq_false_of_isBlank blank] at inTag
    cases inTag
  · rintro rfl
    exact absurd inTag (by decide +kernel)

/-- The key of a tag, with a name behind some number signs. -/
theorem parseFilter_keyed {filter : String} (text : filter.toList = "tag".toList ++ ':' :: cs)
    (solid : IsSolid cs) (name : cs.dropWhile (· = '#') = t.toList) (filled : t ≠ "") :
    parseFilter filter = .ok [.tag t] := by
  have known : Term.ofKey? "tag" cs = some (.ok (.tag t)) := by
    simp [Term.ofKey?, name, filled]
  rw [parseFilter_eq_ok_iff, parse_eq_ok_iff, text]
  refine ⟨_, tokens?_keyed (by decide) solid, ?_⟩
  rw [List.mapM_cons, ofToken_keyed (by decide) known]
  rfl

/-- **A tag behind its key is a single term**, with a number sign or without. -/
theorem parseFilter_tag (tag : IsTag t) :
    parseFilter ("tag:" ++ t) = .ok [.tag t] ∧ parseFilter ("tag:#" ++ t) = .ok [.tag t] := by
  have solid := isSolid_of_isTag tag
  have name : t.toList.dropWhile (· = '#') = t.toList := by
    cases e : t.toList with
    | nil => rfl
    | cons c cs =>
      have other : c ≠ '#' := by
        rintro rfl
        exact tag.not_mem isTagChar_numberSign (e ▸ List.mem_cons_self)
      exact List.dropWhile_cons_of_neg (by simpa using other)
  have sign : ('#' :: t.toList).dropWhile (· = '#') = t.toList := by
    rw [List.dropWhile_cons_of_pos (by decide), name]
  exact ⟨parseFilter_keyed String.toList_append solid name tag.1,
    parseFilter_keyed String.toList_append (solid.cons (by decide)) sign tag.1⟩

end Query

/-- What is derived as a tag of a text is a tag. -/
theorem isTag_of_mem_tags {content t : String} {location : Option Location}
    (h : t ∈ (Payload.ofContent content location).tags) : IsTag t := by
  rw [Payload.ofContent, tags, List.mem_eraseDups, findAll_tagMatch, List.mem_map] at h
  obtain ⟨⟨place, t⟩, sighted, rfl⟩ := h
  obtain ⟨_, _, -, -, -, tag, -⟩ := mem_sightings_iff_standsAt.1 sighted
  exact tag

/-! ## Memos in answers -/

namespace Store

variable {s : Store} {q : MemoQuery} {terms : List Term} {row : MemoRow} {memos : List Memo}

/-- A stored memo is listed just if the query asks for its row. -/
theorem Lists.mem_iff {rows : List MemoRow} (h : s.Lists q terms rows memos) (hs : s.WellFormed)
    (stored : row ∈ s.memos) : row.memo ∈ memos ↔ s.Suits q terms row := by
  refine ⟨fun listed => ?_, h.mem⟩
  rw [h.memos_eq] at listed
  obtain ⟨other, among, same⟩ := List.mem_map.1 listed
  have suits := (h.suited other).1 among
  rwa [← hs.eq_of_id suits.stored stored (congrArg Memo.id same)]

theorem exists_lists (hs : s.WellFormed) (made : ∀ r ∈ s.memos, r.IsMade)
    (parsed : q.terms = .ok terms) (few : terms.length ≤ 900)
    (plain : ∀ t ∈ terms, t.IsPlain) (short : ∀ t ∈ terms, t.isTooLong = false) :
    ∃ rows memos, s.listMemos q = .ok memos ∧ s.Lists q terms rows memos := by
  rcases listMemos_cases hs made parsed plain with lists | ⟨deep | ⟨t, ht, long⟩, -⟩
  · exact lists
  · rw [MemoQuery.isTooDeep_eq_false few] at deep
    cases deep
  · rw [short t ht] at long
    cases long

/-- The filter of a query asks for its terms, and the rest of the query for the rest. -/
theorem suits_iff {filter : Option String} :
    s.Suits { q with filter := filter } terms row ↔
      s.Suits { q with filter := none } [] row ∧ ∀ t ∈ terms, t.Meets row :=
  ⟨fun h => ⟨⟨h.stored, h.id, h.uid, h.creator, h.status, h.original, nofun⟩, h.meets⟩,
    fun ⟨h, meets⟩ => ⟨h.stored, h.id, h.uid, h.creator, h.status, h.original, meets⟩⟩

/-- A filter for a tag, with a number sign or without, leaves of what a query asks for the rows
whose payload was written with the tag. -/
theorem exists_listMemos_tag (hs : s.WellFormed) (made : ∀ r ∈ s.memos, r.IsMade)
    (stored : row ∈ s.memos) {p : Payload} (wrote : row.payload = p.write) (q : MemoQuery)
    {t : String} (tag : IsTag t) : ∃ memos,
      s.listMemos { q with filter := some ("tag:" ++ t) } = .ok memos ∧
      s.listMemos { q with filter := some ("tag:#" ++ t) } = .ok memos ∧
      (row.memo ∈ memos ↔ s.Suits { q with filter := none } [] row ∧ t ∈ p.tags) := by
  obtain ⟨bare, signed⟩ := parseFilter_tag tag
  have few : [Term.tag t].length ≤ 900 := Nat.one_le_ofNat
  have plain : ∀ t' ∈ [Term.tag t], t'.IsPlain := List.forall_mem_singleton.2 trivial
  have short : ∀ t' ∈ [Term.tag t], t'.isTooLong = false := List.forall_mem_singleton.2 rfl
  obtain ⟨rows, memos, listed, lists⟩ := exists_lists
    (q := { q with filter := some ("tag:" ++ t) }) hs made bare few plain short
  have same : s.listMemos { q with filter := some ("tag:#" ++ t) } = .ok memos := by
    rw [← listed, listMemos_of_terms (q := { q with filter := some ("tag:#" ++ t) }) signed,
      listMemos_of_terms (q := { q with filter := some ("tag:" ++ t) }) bare]
    rfl
  refine ⟨memos, listed, same, ?_⟩
  rw [lists.mem_iff hs stored, suits_iff, List.forall_mem_singleton, Term.meets_tag_iff wrote]

/-- The memo is found by just these tags: a filter for a tag, with a number sign or without, lists
it if the tag is among them and not otherwise, alone and in every query that lists it without the
filter. -/
structure FoundBy (s : Store) (m : Memo) (tags : List String) : Prop where
  alone : ∀ t, IsTag t → ∃ memos,
    s.listMemos { filter := some ("tag:" ++ t) } = .ok memos ∧
    s.listMemos { filter := some ("tag:#" ++ t) } = .ok memos ∧ (m ∈ memos ↔ t ∈ tags)
  among : ∀ (q : MemoQuery) (t : String), IsTag t → ∃ all memos,
    s.listMemos { q with filter := none } = .ok all ∧
    s.listMemos { q with filter := some ("tag:" ++ t) } = .ok memos ∧
    s.listMemos { q with filter := some ("tag:#" ++ t) } = .ok memos ∧
    (m ∈ memos ↔ m ∈ all ∧ t ∈ tags)

/-- **The memo of a stored row is found by the tags of the payload that was written in it.** -/
theorem foundBy_of_row (hs : s.WellFormed) (made : ∀ r ∈ s.memos, r.IsMade)
    (stored : row ∈ s.memos) {p : Payload} (wrote : row.payload = p.write) :
    s.FoundBy row.memo p.tags := by
  constructor
  · intro t tag
    obtain ⟨memos, listed, listed', mem⟩ := exists_listMemos_tag hs made stored wrote {} tag
    have asked : s.Suits {} [] row := ⟨stored, nofun, nofun, nofun, nofun, nofun, nofun⟩
    exact ⟨memos, listed, listed', mem.trans (and_iff_right asked)⟩
  · intro q t tag
    obtain ⟨memos, listed, listed', mem⟩ := exists_listMemos_tag hs made stored wrote q tag
    obtain ⟨rows, all, listedAll, lists⟩ := exists_lists (q := { q with filter := none })
      hs made rfl (Nat.zero_le _) nofun nofun
    refine ⟨all, memos, listedAll, listed, listed', ?_⟩
    rw [mem, lists.mem_iff hs stored]

/-! ## New memos -/

variable {user : User} {limit : Nat} {request : ImportRequest} {snapshot : Snapshot}

/-- A memo that a user writes is found by the tags of its text. -/
theorem addMemo_foundBy (hs : s.Consistent) (made : ∀ r ∈ s.memos, r.IsMade)
    (known : s.user? user.username = some user) (hl : s.contentLimit = .ok limit) {content : String}
    (short : byteLength content ≤ limit) {key : String} (free : s.rowByUid? key = none)
    (visibility : Visibility) (pinned : Bool) (now : Int) :
    ∃ m t, s.addMemo user content visibility pinned key now = .ok (m, t) ∧ m.uid = key ∧
      m.content = content ∧ t.FoundBy m (Payload.ofContent content none).tags := by
  have known := any_id_of_user? known
  have checked : checkLength content limit = .ok () := if_neg (Nat.not_lt.2 short)
  have step : s.Alters (s.withRow (authored user content visibility pinned key now)) :=
    .memo free known
  refine ⟨(MemoRow.ofMemo (s.lastMemo + 1)
    (authored user content visibility pinned key now)).memo, _, ?_, rfl, rfl, foundBy_of_row
    (step.consistent hs).wellFormed (step.isMade made) (List.mem_append_right _ List.mem_cons_self)
    rfl⟩
  rw [addMemo_eq known free, hl]
  show (checkLength content limit >>= _) = _
  rw [checked]
  rfl

/-- The record at the place was reported as created, and no later record with its text key as
updated, which would have been written over it. -/
structure CreatedFrom (report : ImportReport) (records : List MemoRecord) (i : ℕ) (r : MemoRecord) :
    Prop where
  record : records[i]? = some r
  created : ∃ v, report.verdicts[i]? = some v ∧ v.disposition? = some .created
  kept : ∀ (j : ℕ) (r' : MemoRecord) (v : Verdict), i < j → records[j]? = some r' →
    report.verdicts[j]? = some v → r'.uid = r.uid → v.disposition? ≠ some .updated

/-- A memo that an import creates is found by the tags of its text. -/
theorem importAs_foundBy (hs : s.Consistent) (made : ∀ r ∈ s.memos, r.IsMade)
    (known : s.user? user.username = some user) (brought : request.snapshot = .ok snapshot)
    (now : Int) : ∃ report t, s.importAs user.username request now = (.ok report, t) ∧
      ∀ i r, CreatedFrom report snapshot.records i r → ∃ m, t.memoByUid? r.uid = some m ∧
        m.content = r.content ∧ t.FoundBy m (Payload.ofContent r.content r.location).tags := by
  refine ⟨_, _, importAs_eq hs.wellFormed known brought now, fun i r from' => ?_⟩
  obtain ⟨v, reported, created⟩ := from'.created
  obtain ⟨id, stored⟩ :=
    rowByUid?_mergedAll_of_created hs.wellFormed from'.record reported created from'.kept
  have steps := s.mergedAll_leads user.id request.options now snapshot.records
  refine ⟨_, congrArg (Option.map MemoRow.memo) stored, rfl, ?_⟩
  exact foundBy_of_row (steps.consistent hs).wellFormed (steps.isMade made)
    (mem_of_rowByUid? stored).1 rfl

/-- **Derived tags can be searched for.** After any operations, a user writes a memo whose content
is within the limit, or a snapshot is imported and one of its records makes a memo: a filter for a
tag, with a number sign or without, lists the new memo just if the tag is among those derived from
its content. In particular, both filters are a single term for whatever is derived as a tag. -/
theorem run_finds_tags (ops : List Operation) {user : User}
    (known : (run ops).user? user.username = some user) :
    (∀ (content : String) (visibility : Visibility) (pinned : Bool) (key : String) (now : Int)
      (limit : Nat), (run ops).contentLimit = .ok limit → byteLength content ≤ limit →
      (run ops).rowByUid? key = none →
      ∃ m t, (run ops).addMemo user content visibility pinned key now = .ok (m, t) ∧
        m.uid = key ∧ m.content = content ∧ t.FoundBy m (Payload.ofContent content none).tags) ∧
    (∀ (request : ImportRequest) (snapshot : Snapshot) (now : Int),
      request.snapshot = .ok snapshot →
      ∃ report t, (run ops).importAs user.username request now = (.ok report, t) ∧
        ∀ i r, CreatedFrom report snapshot.records i r → ∃ m, t.memoByUid? r.uid = some m ∧
          m.content = r.content ∧ t.FoundBy m (Payload.ofContent r.content none).tags) ∧
    (∀ (content : String) (location : Option Location),
      ∀ t ∈ (Payload.ofContent content location).tags, IsTag t) ∧
    ∀ t, IsTag t →
      parseFilter ("tag:" ++ t) = .ok [.tag t] ∧ parseFilter ("tag:#" ++ t) = .ok [.tag t] := by
  have hs := run_consistent ops
  have made := run_isMade ops
  refine ⟨?_, ?_, fun content location t => isTag_of_mem_tags, fun t => parseFilter_tag⟩
  · intro content visibility pinned key now limit hl short free
    exact addMemo_foundBy hs made known hl short free visibility pinned now
  · intro request snapshot now brought
    exact importAs_foundBy hs made known brought now

/-- A single user and nothing else. -/
def enrolled : List Operation := [.table (.createUser "alice")]

/-- A memo is found by a tag that is not ASCII, whether it is written or imported. -/
theorem run_finds_tags_enrolled :
    (∃ m t memos, (run enrolled).addMemo ⟨1, "alice"⟩ "go #café" .members false "a" 0 =
        .ok (m, t) ∧
      t.listMemos { filter := some "tag:#café" } = .ok memos ∧ m ∈ memos) ∧
    ∃ report t m memos, (run enrolled).importAs "alice" (bringing [bounded]) 0 = (.ok report, t) ∧
      t.memoByUid? "b" = some m ∧
      t.listMemos { filter := some "tag:café" } = .ok memos ∧ m ∈ memos := by
  have known : (run enrolled).user? (User.mk 1 "alice").username = some ⟨1, "alice"⟩ := rfl
  have hl : (run enrolled).contentLimit = .ok defaultContentLimit := rfl
  have tag : IsTag "café" := by
    have all : "café".toList.all isTagChar = true := by decide +kernel
    exact ⟨by decide, List.all_eq_true.1 all⟩
  have finite : ∀ r ∈ [bounded], r.IsFinite := List.forall_mem_singleton.2 (by decide)
  have brought := snapshot_bringing finite
  obtain ⟨written, imported, -, -⟩ := run_finds_tags enrolled known
  constructor
  · obtain ⟨m, t, added, -, -, found⟩ := written "go #café" .members false "a" 0 _ hl
      (by decide +kernel) rfl
    obtain ⟨memos, -, listed, mem⟩ := found.alone _ tag
    exact ⟨m, t, memos, added, listed, mem.2 (by decide +kernel)⟩
  · obtain ⟨report, t, done, created⟩ := imported _ _ 0 brought
    have reported := importAs_eq (run_consistent enrolled).wellFormed known brought 0
    obtain rfl := Except.ok.inj (congrArg Prod.fst (done.symm.trans reported))
    have fit : (run enrolled).refusal? (bringing [bounded]).options bounded = none := by
      decide +kernel
    have new : (run enrolled).verdict 1 (bringing [bounded]).options bounded = _ :=
      verdict_of_new rfl fit rfl rfl
    have single : ∀ j : ℕ, 0 < j → (Snapshot.ofRecords .epoch [bounded]).records[j]? = none :=
      fun j later => List.getElem?_eq_none later
    obtain ⟨m, stored, -, found⟩ := created 0 bounded ⟨rfl, ⟨_, congrArg some new, rfl⟩,
      fun j r' v later there => by rw [single j later] at there; cases there⟩
    obtain ⟨memos, listed, -, mem⟩ := found.alone _ tag
    exact ⟨_, t, m, memos, done, stored, listed, mem.2 (by decide +kernel)⟩

end Store

end MemoTransfer
