import MemoTransfer.Proofs.Query.Parts
import MemoTransfer.Proofs.Store.Selecting
import MemoTransfer.Proofs.Transfer.Histories
import MemoTransfer.Proofs.Transfer.Migration

/-!
# What an export brings

If all memos that operations write have finite coordinates, the rows that they lead to hold what
their memos say (`Store.run_isWritten`). An export then brings one record for each memo that the
request wants (`Store.Wants`), in order, with the attachments and relations that it asks for
(`Store.IsRecordOf`), and no other ones (`Store.run_exportAs`). The database refuses only a filter
of too many terms and one with too long a text (`Store.run_exportAs_refused`). Whatever the filter
says, no memo of another user is brought (`Store.records_of_exportAs`).
-/

namespace MemoTransfer

open MemoTransfer.Calendar MemoTransfer.Query

/-! ## Operations with finite coordinates -/

/-- The memos that the change of a table writes have finite coordinates. -/
def TableOperation.IsFinite : TableOperation → Prop
  | createMemo memo => memo.payload.IsFinite
  | updateMemo patch => ∀ p ∈ patch.payload, p.IsFinite
  | _ => True

/-- The memos that the operation is given have finite coordinates. What an import reads has. -/
def Operation.IsFinite : Operation → Prop
  | account _ => True
  | table op => op.IsFinite

namespace Store

variable {s t : Store}

namespace IsWritten

theorem withRow (hs : s.IsWritten) {m : Memo} (hm : m.payload.IsFinite) :
    (s.withRow m).IsWritten := by
  intro r hr
  rcases List.mem_append.1 hr with hr | hr
  · exact hs r hr
  · rw [List.mem_singleton.1 hr]
    exact .of_memo hm _

theorem withPatch (hs : s.IsWritten) {p : MemoPatch} (hp : ∀ q ∈ p.payload, q.IsFinite) :
    (s.withPatch p).IsWritten := by
  intro r hr
  obtain ⟨t, ht, rfl⟩ := List.mem_map.1 hr
  split
  · exact (hs t ht).patch hp
  · exact hs t ht

theorem merged (hs : s.IsWritten) {r : MemoRecord} (hr : r.IsFinite) (owner : UserId)
    (options : ImportOptions) (now : Int) : (s.merged owner options now r).IsWritten := by
  have step := s.reconciled owner options now r
  generalize s.verdict owner options r = v, s.merged owner options now r = t at step ⊢
  cases step with
  | refused _ => exact hs
  | validated _ _ => exact hs
  | updated _ _ _ =>
    refine hs.withPatch fun q hq => ?_
    cases hq
    exact hr
  | created _ _ _ _ => exact hs.withRow hr
  | unowned _ _ _ _ => exact hs

theorem mergedAll (hs : s.IsWritten) {records : List MemoRecord} (hr : ∀ r ∈ records, r.IsFinite)
    (owner : UserId) (options : ImportOptions) (now : Int) :
    (s.mergedAll owner options now records).IsWritten := by
  induction records generalizing s with
  | nil => exact hs
  | cons r records ih =>
    rw [List.forall_mem_cons] at hr
    exact ih (hs.merged hr.1 owner options now) hr.2

end IsWritten

theorem Becomes.isWritten (hs : s.IsWritten) (h : s.Becomes t) : t.IsWritten := by
  cases h with
  | same memos _ _ _ =>
    unfold IsWritten
    rw [memos]
    exact hs
  | written sound _ => exact hs.withRow sound.isFinite
  | marked id status => exact hs.withPatch fun q hq => by cases hq
  | removed id => exact fun r hr => hs r (List.mem_of_mem_filter hr)
  | imported owner options now finite => exact hs.mergedAll finite owner options now.seconds

theorem IsWritten.table (hs : s.IsWritten) {op : TableOperation} (finite : op.IsFinite) :
    (op.perform s).IsWritten := by
  cases op with
  | createUser username =>
    rw [TableOperation.perform, createUser]
    split <;> exact hs
  | createMemo memo =>
    rw [TableOperation.perform]
    cases h : s.createMemo memo with
    | error e => exact hs
    | ok x =>
      obtain ⟨-, -, -, e⟩ := of_createMemo h
      show x.2.IsWritten
      rw [e]
      exact hs.withRow finite
  | updateMemo patch =>
    rw [TableOperation.perform]
    cases h : s.updateMemo patch with
    | error e => exact hs
    | ok t =>
      rcases of_updateMemo h with rfl | rfl
      · exact hs
      · exact hs.withPatch finite
  | deleteMemo id => exact fun r hr => hs r (List.mem_of_mem_filter hr)
  | createAttachment uid memoId filename mimeType size =>
    rw [TableOperation.perform, createAttachment]
    split
    · exact hs
    · split <;> exact hs
  | createRelation relation =>
    rw [TableOperation.perform, createRelation]
    split <;> exact hs
  | setSetting name value =>
    obtain ⟨settings, h⟩ := s.setSetting_eq name value
    rw [TableOperation.perform, h]
    exact hs

theorem afterAll_isWritten (hs : s.Consistent) (written : s.IsWritten) {ops : List Operation}
    (finite : ∀ op ∈ ops, op.IsFinite) : (s.afterAll ops).IsWritten := by
  induction ops generalizing s with
  | nil => exact written
  | cons op ops ih =>
    rw [List.forall_mem_cons] at finite
    have consistent : (op.perform s).Consistent := (afterAll_leads hs [op]).consistent hs
    refine ih consistent ?_ finite.2
    cases op with
    | account op => exact (perform_becomes hs.wellFormed op).isWritten written
    | table op => exact written.table finite.1

/-- **What operations with finite coordinates lead to holds what its memos say.** -/
theorem run_isWritten {ops : List Operation} (finite : ∀ op ∈ ops, op.IsFinite) :
    (run ops).IsWritten :=
  afterAll_isWritten .empty (fun _ hr => absurd hr List.not_mem_nil) finite

end Store

/-! ## What a request wants -/

/-- The terms of the filter of a request; a blank filter has none. -/
def ExportRequest.terms (request : ExportRequest) : Except Error (List Term) :=
  match request.filter with
  | none => .ok []
  | some f => if f.toList.all Text.isBlank then .ok [] else parseFilter f

/-- The memo was created before the other one, or at the same time under a smaller number. -/
def Memo.Precedes (m m' : Memo) : Prop :=
  m.createdTs < m'.createdTs ∨ m.createdTs = m'.createdTs ∧ m.id < m'.id

namespace Store

variable {s : Store} {user : User} {request : ExportRequest} {terms : List Term}

/-- The request wants the memo. -/
structure Wants (s : Store) (user : User) (request : ExportRequest) (terms : List Term)
    (m : Memo) : Prop where
  stored : ∃ r ∈ s.memos, r.memo = m
  owned : m.creatorId = user.id
  /-- It is no comment on another memo. -/
  original : ∀ r ∈ s.relations, r.memoId = m.id → r.kind ≠ .comment
  active : request.excludeArchived = true → m.rowStatus = .normal
  holds : ∀ t ∈ terms, t.HoldsOf m

/-- The record is the one of the memo, with attachments and relations as the request asks. -/
structure IsRecordOf (s : Store) (request : ExportRequest) (m : Memo) (record : MemoRecord) :
    Prop where
  memo : { record with attachments := [], relations := [] } = MemoRecord.ofMemo m
  /-- All attachments, in the order of their numbers. -/
  attachments : if request.includeAttachments then
      ∃ all : List Attachment, all.Pairwise (·.id < ·.id) ∧
        (∀ a, a ∈ all ↔ a ∈ s.attachments ∧ a.memoId = some m.id) ∧
        record.attachments = all.map .ofAttachment
    else record.attachments = []
  /-- The relations whose targets are there, in the order in which they were put in. -/
  relations : if request.includeRelations then
      record.relations = (s.relations.filter (·.memoId = m.id)).filterMap fun r =>
        (s.memos.find? (·.id = r.relatedId)).map fun target => ⟨target.uid, r.kind.name⟩
    else record.relations = []

theorem isComment_eq_false_iff {id : MemoId} : s.isComment id = false ↔
    ∀ r ∈ s.relations, r.memoId = id → r.kind ≠ .comment := by
  simp [isComment, relationsOf]

theorem matches_query_iff {r : MemoRow} (h : r.IsMade) :
    r.matches (request.query user.id) = true ↔ r.memo.creatorId = user.id ∧
      (request.excludeArchived = true → r.memo.rowStatus = .normal) := by
  rw [matches_iff h, ExportRequest.query]
  cases request.excludeArchived <;> simp

/-- The rows that are exported are those whose memos are wanted. -/
theorem mem_rowsHolding_query_iff (hs : s.IsWritten) {r : MemoRow} :
    r ∈ s.rowsHolding (request.query user.id) terms ↔
      r ∈ s.memos ∧ s.Wants user request terms r.memo := by
  rw [rowsHolding, rowsMatching, List.mem_filter, List.mem_filter]
  constructor
  · rintro ⟨⟨hr, matching⟩, holds⟩
    rw [Bool.and_eq_true, matches_query_iff (hs r hr).isMade, Bool.not_eq_true'] at matching
    obtain ⟨⟨owned, active⟩, original⟩ := matching
    exact ⟨hr, ⟨r, hr, rfl⟩, owned, isComment_eq_false_iff.1 original, active,
      fun t ht => of_decide_eq_true (List.all_eq_true.1 holds t ht)⟩
  · rintro ⟨hr, wanted⟩
    refine ⟨⟨hr, ?_⟩, List.all_eq_true.2 fun t ht => decide_eq_true (wanted.holds t ht)⟩
    rw [Bool.and_eq_true, matches_query_iff (hs r hr).isMade, Bool.not_eq_true']
    exact ⟨⟨wanted.owned, wanted.active⟩, isComment_eq_false_iff.2 wanted.original⟩

/-- Rows in order whose numbers differ are strictly in order. -/
theorem pairwise_precedes {rows : List MemoRow} (ids : (rows.map (·.id)).Nodup)
    (ordered : rows.Pairwise fun r t => r.isBefore t = true) :
    (rows.map MemoRow.memo).Pairwise Memo.Precedes := by
  rw [List.nodup_iff_pairwise_ne, List.pairwise_map] at ids
  rw [List.pairwise_map]
  refine ordered.imp₂ (fun r t before apart => ?_) ids
  rcases MemoRow.isBefore_iff.1 before with h | ⟨same, le⟩
  · exact .inl h
  · exact .inr ⟨same, lt_of_le_of_ne le apart⟩

/-- The terms of a request are those of the query that it becomes. -/
theorem terms_query_eq (request : ExportRequest) (owner : UserId) :
    (request.query owner).terms = request.terms := by
  rw [MemoQuery.terms, ExportRequest.query, ExportRequest.terms]
  cases request.filter with
  | none => rfl
  | some f =>
    simp only [Option.filter_some]
    cases f.toList.all Text.isBlank <;> rfl

theorem terms_query (parsed : request.terms = .ok terms) (owner : UserId) :
    (request.query owner).terms = .ok terms :=
  (terms_query_eq request owner).trans parsed

/-- The memos of an export are those of the rows that its query selects. -/
theorem exportedMemos_of_select {username : String} {rows : List MemoRow}
    (known : s.user? username = some user) (parsed : request.terms = .ok terms)
    (selected : s.select (request.query user.id) terms = .ok rows) :
    s.exportedMemos username request = .ok (rows.map MemoRow.memo) := by
  rw [exportedMemos, session, known]
  show s.listMemos (request.query user.id) = _
  rw [listMemos_of_terms (terms_query parsed _), selected]
  rfl

/-- **The memos of an export are those that its request wants**, in order. -/
theorem exists_exportedMemos (hs : s.WellFormed) (written : s.IsWritten) {username : String}
    (known : s.user? username = some user) (parsed : request.terms = .ok terms)
    (shallow : (request.query user.id).isTooDeep terms = false)
    (short : ∀ t ∈ terms, t.isTooLong = false) :
    ∃ memos, s.exportedMemos username request = .ok memos ∧ memos.Pairwise Memo.Precedes ∧
      ∀ m, m ∈ memos ↔ s.Wants user request terms m := by
  have selected := select_eq written shallow short
  have perm := List.mergeSort_perm (s.rowsHolding (request.query user.id) terms) MemoRow.isBefore
  have sub : (s.rowsHolding (request.query user.id) terms).Sublist s.memos :=
    List.filter_sublist.trans List.filter_sublist
  refine ⟨_, exportedMemos_of_select known parsed selected,
    pairwise_precedes (((perm.map _).nodup_iff).2 (hs.ids.sublist (sub.map _)))
      (List.pairwise_mergeSort MemoRow.isBefore_trans MemoRow.isBefore_total _), fun m => ?_⟩
  rw [List.mem_map]
  constructor
  · rintro ⟨r, hr, rfl⟩
    exact ((mem_rowsHolding_query_iff written).1 (perm.mem_iff.1 hr)).2
  · intro wanted
    obtain ⟨r, hr, rfl⟩ := wanted.stored
    exact ⟨r, perm.mem_iff.2 ((mem_rowsHolding_query_iff written).2 ⟨hr, wanted⟩), rfl⟩

/-! ## Records -/

theorem relationRef?_eq (hs : s.WellFormed) (r : Relation) : s.relationRef? r =
    (s.memos.find? (·.id = r.relatedId)).map fun target => ⟨target.uid, r.kind.name⟩ := by
  have matching : s.rowsMatching (.byId r.relatedId) =
      s.memos.filter (·.id = r.relatedId) := by
    refine List.filter_congr fun t _ => ?_
    simp [MemoRow.matches, MemoQuery.byId, eq_comm]
  rw [relationRef?, matching, filter_eq_toList_find? hs.ids]
  cases s.memos.find? (·.id = r.relatedId) with
  | none => simp
  | some t => simp [MemoRow.memo]

/-- **The record that is exported for a memo is the one that the request asks for.** -/
theorem isRecordOf_exportRecord (hs : s.Consistent) (request : ExportRequest) (m : Memo) :
    s.IsRecordOf request m (s.exportRecord request m) := by
  refine ⟨rfl, ?_, ?_⟩
  · rw [exportRecord]
    cases request.includeAttachments with
    | false => rfl
    | true =>
      refine ⟨s.attachmentsOf m.id, ?_, fun a => ?_, rfl⟩
      · have increasing := hs.attachments.increasing
        rw [attachmentKeys, List.pairwise_map] at increasing
        exact increasing.sublist List.filter_sublist
      · rw [attachmentsOf, List.mem_filter, decide_eq_true_iff]
  · rw [exportRecord]
    cases request.includeRelations with
    | false => rfl
    | true =>
      have each : s.relationRef? = fun r => (s.memos.find? (·.id = r.relatedId)).map
          fun target => ⟨target.uid, r.kind.name⟩ := funext (relationRef?_eq hs.wellFormed)
      show (s.relationsOf m.id).filterMap s.relationRef? = _
      rw [each, relationsOf]

/-- The records of memos in an export. -/
theorem forall₂_snapshotOf (hs : s.Consistent) (request : ExportRequest) (exportedAt : Instant)
    (memos : List Memo) : List.Forall₂ (s.IsRecordOf request) memos
      (s.snapshotOf request exportedAt memos).records := by
  rw [snapshotOf, Snapshot.ofRecords, List.forall₂_map_right_iff]
  exact List.forall₂_same.2 fun m _ => isRecordOf_exportRecord hs request m

/-! ## Filters that the database refuses -/

/-- The request with so many words as its filter. -/
def wordy (n : Nat) : ExportRequest :=
  { filter := some (String.ofList (List.replicate n ['x', ' ']).flatten) }

/-- The request with one long word as its filter. -/
def lengthy (n : Nat) : ExportRequest := { filter := some (String.ofList (List.replicate n 'x')) }

theorem terms_wordy {n : Nat} (h : 0 < n) :
    (wordy n).terms = .ok (List.replicate n (.content "x")) := by
  have given : (String.ofList (List.replicate n ['x', ' ']).flatten).toList.all Text.isBlank =
      false := by
    obtain ⟨n, rfl⟩ : ∃ m, n = m + 1 := ⟨n - 1, by omega⟩
    rw [String.toList_ofList, List.replicate_succ]
    rfl
  rw [ExportRequest.terms, wordy]
  simp only [given, Bool.false_eq_true, ↓reduceIte]
  exact parseFilter_eq_ok_iff.2 (parse_words n)

/-- Too many words are refused. -/
theorem isTooDeep_wordy {n : Nat} (h : 990 ≤ n) (owner : UserId) :
    ((wordy n).query owner).isTooDeep (List.replicate n (.content "x")) = true := by
  have each : ∀ n whole, 3 ≤ whole → ((List.replicate n (Term.content "x")).map Term.depth).foldl
      (fun whole part => 1 + max whole part) whole = whole + n := by
    intro n
    induction n with
    | zero => exact fun whole _ => rfl
    | succ n ih =>
      intro whole hw
      have one : (Term.content "x").depth = 3 := rfl
      rw [List.replicate_succ, List.map_cons, List.foldl_cons, one, ih _ (by omega)]
      omega
  have depth : ((wordy n).query owner).depth (List.replicate n (.content "x")) = 7 + n :=
    each n 7 (by decide)
  have further : 4 ≤ ((wordy n).query owner).furtherDepth (List.replicate n (.content "x")) :=
    Nat.le_max_left 4 _
  rw [MemoQuery.isTooDeep, depth, decide_eq_true_iff]
  have : depthLimit = 1000 := rfl
  omega

theorem terms_lengthy {n : Nat} (h : 0 < n) :
    (lengthy n).terms = .ok [.content (String.ofList (List.replicate n 'x'))] := by
  have given : (List.replicate n 'x').all Text.isBlank = false := by
    obtain ⟨n, rfl⟩ : ∃ m, n = m + 1 := ⟨n - 1, by omega⟩
    rw [List.replicate_succ]
    rfl
  have solid : IsSolid (List.replicate n 'x') := by
    intro c hc
    rw [List.eq_of_mem_replicate hc]
    decide
  have filled : List.replicate n 'x' ≠ [] := by simpa using h.ne'
  have noColon : ∀ n, splitColon (List.replicate n 'x') = none := by
    intro n
    induction n with
    | zero => rfl
    | succ n ih =>
      rw [List.replicate_succ, splitColon, if_neg (by decide), ih]
      rfl
  rw [ExportRequest.terms, lengthy]
  simp only [String.toList_ofList, given, Bool.false_eq_true, ↓reduceIte]
  rw [parseFilter, parse, String.toList_ofList, solid.tokens?_eq filled]
  simp only [List.mapM_cons, List.mapM_nil, Term.ofToken, noColon]
  rfl

/-- Too long a word is refused. -/
theorem isTooLong_lengthy {n : Nat} (h : Like.patternLimit ≤ n) :
    (Term.content (String.ofList (List.replicate n 'x'))).isTooLong = true := by
  have plain : ∀ n, Like.escape (List.replicate n 'x') = List.replicate n 'x' := by
    intro n
    induction n with
    | zero => rfl
    | succ n ih =>
      rw [List.replicate_succ, Like.escape, ih]
      rfl
  have ascii : ∀ c ∈ Like.containing (List.replicate n 'x'), c.toNat < 128 := by
    intro c hc
    rw [Like.containing, plain, List.cons_append, List.mem_cons, List.mem_append,
      List.mem_replicate, List.mem_singleton] at hc
    rcases hc with rfl | ⟨-, rfl⟩ | rfl <;> decide
  have length : (String.ofList (Like.containing (List.replicate n 'x'))).utf8ByteSize = n + 2 := by
    show byteLength _ = _
    rw [← Utf8.length_encode, Utf8.encode_ofList, Utf8.bytes_eq_map ascii, List.length_map,
      Like.containing, plain]
    simp
  rw [Term.isTooLong, String.toList_ofList, length, decide_eq_true_iff]
  omega

/-- A text that is too long is refused if there is a row to look at. -/
theorem select_of_isTooLong {q : MemoQuery} {t : Term} (shallow : q.isTooDeep [t] = false)
    (long : t.isTooLong = true) {r : MemoRow} (hr : r ∈ s.memos) (matching : r.matches q = true) :
    s.select q [t] = .error (.database "LIKE or GLOB pattern too complex") := by
  have tried : [t].takeWhile (!·.isTooLong) = [] := List.takeWhile_cons_of_neg (by simp [long])
  have some : (s.memos.filter fun r => r.matches q && ([] : List Term).all r.satisfies).isEmpty =
      false := by
    rw [List.isEmpty_eq_false_iff_exists_mem]
    exact ⟨r, List.mem_filter.2 ⟨hr, by rw [matching]; rfl⟩⟩
  unfold select
  rw [shallow]
  simp only [tried, some]
  rfl

/-- An export whose filter the database refuses fails with what the database says. -/
theorem exportAs_of_refused {username : String} {e : Error}
    (known : s.user? username = some user) (format : resolveFormat request.format = .ok jsonFormat)
    (parsed : request.terms = .ok terms)
    (refused : s.select (request.query user.id) terms = .error e) (exportedAt : Instant) :
    s.exportAs username request exportedAt = .error e := by
  have answer : s.exportAs username request exportedAt = _ :=
    congrArg Prod.fst (s.exportMemos_ends (s.session username) request exportedAt)
  rw [answer, exported, session, known, format]
  show (s.listMemos (request.query user.id) >>= _) = _
  rw [listMemos_of_terms (terms_query parsed _), refused]
  rfl

/-- **Nearly a thousand words are more than the database takes.** -/
theorem exportAs_wordy {n : Nat} (h : 990 ≤ n) {username : String}
    (known : s.user? username = some user) (exportedAt : Instant) :
    s.exportAs username (wordy n) exportedAt =
      .error (.database "Expression tree is too large (maximum depth 1000)") := by
  have refused := s.select_of_isTooDeep (isTooDeep_wordy h user.id)
  exact exportAs_of_refused known rfl (terms_wordy (by omega)) refused exportedAt

/-- **A word of fifty thousand bytes is more than the database takes**, if there is a memo to look
at. -/
theorem exportAs_lengthy {n : Nat} (h : 50000 ≤ n) {username : String}
    (known : s.user? username = some user) {r : MemoRow} (hr : r ∈ s.memos)
    (owned : r.creatorId = user.id) (exportedAt : Instant) :
    s.exportAs username (lengthy n) exportedAt =
      .error (.database "LIKE or GLOB pattern too complex") := by
  refine exportAs_of_refused known rfl (terms_lengthy (by omega)) ?_ exportedAt
  have matching : r.matches ((lengthy n).query user.id) = true := by
    rw [MemoRow.matches, ExportRequest.query, lengthy, owned]
    simp
  exact select_of_isTooLong rfl (isTooLong_lengthy h) hr matching

/-! ## Exports -/

/-- The response brings the memos that a request wants. -/
structure Brings (s : Store) (user : User) (request : ExportRequest) (terms : List Term)
    (response : ExportResponse) (snapshot : Snapshot) (memos : List Memo) : Prop where
  data : Snapshot.decode response.data = .ok snapshot
  version : snapshot.version = "1.0"
  /-- They are in the order of their creation and then of their numbers. -/
  ordered : memos.Pairwise Memo.Precedes
  wanted : ∀ m, m ∈ memos ↔ s.Wants user request terms m
  records : List.Forall₂ (s.IsRecordOf request) memos snapshot.records
  memoCount : response.memoCount.toNat = min snapshot.records.length (2 ^ 32 - 1)
  sizeBytes : response.sizeBytes.toNat = response.data.length % 2 ^ 64

/-- What stands behind an export that succeeds: a known user, a list of terms and the rows that are
selected for them. -/
theorem exists_select_of_exportAs {username : String} {exportedAt : Instant}
    {response : ExportResponse} {skipped : List SkippedMemo}
    (h : s.exportAs username request exportedAt = .ok (response, skipped)) :
    ∃ user terms rows, s.user? username = some user ∧ request.terms = .ok terms ∧
      s.select (request.query user.id) terms = .ok rows ∧
      response = .ofSnapshot (s.snapshotOf request exportedAt (rows.map MemoRow.memo))
        jsonFormat := by
  obtain ⟨memos, listed, -, rfl⟩ := exists_memos_of_exportAs h
  obtain ⟨user, hu, listed⟩ := exists_ok_of_bind listed
  obtain ⟨terms, parsed, listed⟩ := exists_ok_of_bind listed
  obtain ⟨rows, selected, listed⟩ := exists_ok_of_bind listed
  cases listed
  refine ⟨user, terms, rows, ?_, (terms_query_eq request user.id).symm.trans parsed, selected, rfl⟩
  unfold session at hu
  split at hu
  · rw [← Except.ok.inj hu]
    assumption
  · cases hu

/-- The bytes of an export hold the snapshot of its rows. -/
theorem decode_snapshotOf (s : Store) (request : ExportRequest) (exportedAt : Instant)
    (rows : List MemoRow) (format : String) :
    Snapshot.decode (ExportResponse.ofSnapshot (s.snapshotOf request exportedAt
      (rows.map MemoRow.memo)) format).data =
        .ok (s.snapshotOf request exportedAt (rows.map MemoRow.memo)) := by
  refine ExportResponse.decode_data (isFinite_snapshotOf (fun m hm => ?_) _ _) _
  obtain ⟨r, -, rfl⟩ := List.mem_map.1 hm
  exact Payload.isFinite_read r.payload

/-- Each record of an export is one of a memo of the user, whatever the request asks for. -/
theorem records_of_exportAs (hs : s.Consistent) {username : String} {exportedAt : Instant}
    {response : ExportResponse} {skipped : List SkippedMemo}
    (known : s.user? username = some user)
    (h : s.exportAs username request exportedAt = .ok (response, skipped)) :
    ∃ snapshot, Snapshot.decode response.data = .ok snapshot ∧ ∀ record ∈ snapshot.records,
      ∃ r ∈ s.memos, r.creatorId = user.id ∧ s.IsRecordOf request r.memo record := by
  obtain ⟨user', terms, rows, hu, -, selected, rfl⟩ := exists_select_of_exportAs h
  rw [known] at hu
  cases hu
  obtain ⟨kept, sub, rfl⟩ := exists_sublist_of_select selected
  refine ⟨_, decode_snapshotOf s request exportedAt _ _, fun record hr => ?_⟩
  obtain ⟨m, hm, rfl⟩ := List.mem_map.1 hr
  obtain ⟨r, among, rfl⟩ := List.mem_map.1 hm
  have selected := (List.mergeSort_perm kept MemoRow.isBefore).subset among
  obtain ⟨there, matching⟩ := List.mem_filter.1 (sub.subset selected)
  refine ⟨r, there, ?_, isRecordOf_exportRecord hs request r.memo⟩
  rw [MemoRow.matches, ExportRequest.query] at matching
  simp only [Bool.and_eq_true, Option.all_some, decide_eq_true_eq] at matching
  exact matching.1.2.symm

/-- **An export is exact.** After any operations with finite coordinates, an export of a known user
in the known format, whose filter is absent, blank or a list of terms within the limits of the
database, succeeds and brings the memos that the request wants, each with the attachments and
relations that it asks for. And no request whatsoever brings another user's memo. -/
theorem run_exportAs {ops : List Operation} (finite : ∀ op ∈ ops, op.IsFinite) {username : String}
    (known : (run ops).user? username = some user)
    (format : request.format = "" ∨ request.format = "json") (parsed : request.terms = .ok terms)
    (shallow : (request.query user.id).isTooDeep terms = false)
    (short : ∀ t ∈ terms, t.isTooLong = false) (exportedAt : Instant) :
    (∃ response snapshot memos,
      (run ops).exportAs username request exportedAt = .ok (response, []) ∧
      (run ops).Brings user request terms response snapshot memos) ∧
    ∀ (other : ExportRequest) (exportedAt : Instant) (response : ExportResponse)
      (skipped : List SkippedMemo),
      (run ops).exportAs username other exportedAt = .ok (response, skipped) →
      ∃ snapshot, Snapshot.decode response.data = .ok snapshot ∧ ∀ record ∈ snapshot.records,
        ∃ r ∈ (run ops).memos, r.creatorId = user.id ∧
          (run ops).IsRecordOf other r.memo record := by
  have hs := run_consistent ops
  have written := run_isWritten finite
  obtain ⟨memos, listed, ordered, wanted⟩ :=
    exists_exportedMemos hs.wellFormed written known parsed shallow short
  have accepted : resolveFormat request.format = .ok jsonFormat := if_pos format
  have exported := exportAs_eq accepted listed exportedAt
  have finite : ((run ops).snapshotOf request exportedAt memos).IsFinite := by
    refine isFinite_snapshotOf (fun m hm => ?_) request exportedAt
    obtain ⟨r, -, rfl⟩ := ((wanted m).1 hm).stored
    exact Payload.isFinite_read r.payload
  refine ⟨⟨_, _, memos, exported, ExportResponse.decode_data finite _, rfl, ordered, wanted,
    forall₂_snapshotOf hs request exportedAt memos, ?_, ?_⟩,
    fun other exportedAt response skipped h => records_of_exportAs hs known h⟩
  · rw [ExportResponse.ofSnapshot]
    exact UInt32.toNat_ofNat_of_lt' (Nat.lt_of_le_of_lt (Nat.min_le_right _ _) (by decide))
  · rw [ExportResponse.ofSnapshot, UInt64.toNat_ofNat']

/-- A user with a tagged memo. -/
def filed : List Operation := [.table (.createUser "alice"), .table (.createMemo tagged)]

theorem isFinite_filed : ∀ op ∈ filed, op.IsFinite := by
  intro op hop
  fin_cases hop
  · trivial
  · exact isFinite_tagged

/-- The tagged memo is found by its tag. -/
theorem run_exportAs_filed : ∃ response snapshot,
    (run filed).exportAs "alice" { filter := some "tag:x" } .epoch = .ok (response, []) ∧
      Snapshot.decode response.data = .ok snapshot ∧ ∃ record ∈ snapshot.records,
        record.uid = "a" := by
  have known : (run filed).user? "alice" = some ⟨1, "alice"⟩ := rfl
  have parsed : ({ filter := some "tag:x" } : ExportRequest).terms = .ok [.tag "x"] := by rfl
  obtain ⟨⟨response, snapshot, memos, exported, brought⟩, -⟩ :=
    run_exportAs isFinite_filed known (.inl rfl) parsed (by rfl) (by decide) .epoch
  have row : MemoRow.ofMemo 1 tagged ∈ (run filed).memos := List.mem_singleton.2 rfl
  have wanted : tagged ∈ memos := by
    refine (brought.wanted _).2 ⟨⟨_, row, memo_tagged⟩, rfl, ?_, ?_, ?_⟩
    · intro r hr
      cases hr
    · exact fun archived => absurd archived (by decide)
    · rw [List.forall_mem_singleton]
      exact List.mem_singleton.2 rfl
  obtain ⟨length, each⟩ := List.forall₂_iff_get.1 brought.records
  obtain ⟨i, hi, e⟩ := List.getElem_of_mem wanted
  have record := each i hi (length ▸ hi)
  have uid : _ = (memos[i]).uid := congrArg MemoRecord.uid record.memo
  rw [e] at uid
  exact ⟨response, snapshot, exported, brought.data, _, List.get_mem _ _, uid⟩

/-- The database takes neither a thousand terms nor a text of more than fifty thousand bytes. -/
theorem run_exportAs_refused : (∀ op ∈ filed, op.IsFinite) ∧
    (run filed).user? "alice" = some ⟨1, "alice"⟩ ∧
    (∃ terms, (wordy 1000).terms = .ok terms) ∧ (∃ terms, (lengthy 50000).terms = .ok terms) ∧
    (run filed).exportAs "alice" (wordy 1000) .epoch =
      .error (.database "Expression tree is too large (maximum depth 1000)") ∧
    (run filed).exportAs "alice" (lengthy 50000) .epoch =
      .error (.database "LIKE or GLOB pattern too complex") := by
  have known : (run filed).user? "alice" = some ⟨1, "alice"⟩ := rfl
  have row : MemoRow.ofMemo 1 tagged ∈ (run filed).memos := List.mem_singleton.2 rfl
  exact ⟨isFinite_filed, known, ⟨_, terms_wordy (by decide)⟩, ⟨_, terms_lengthy (by decide)⟩,
    exportAs_wordy (by decide) known .epoch, exportAs_lengthy (by decide) known row rfl .epoch⟩

end Store

end MemoTransfer
