import MemoTransfer.Proofs.Transfer.DryRun
import MemoTransfer.Proofs.Transfer.Exactness

/-!
# Memos of different users

A user archives, deletes, lists and exports only memos of their own (`Store.IsGuarded`), and what is
done for a user leaves the rows of all others as they are, with a single exception: an import that
overwrites finds the memo of a record by its text key, whoever owns it. Such a row keeps its number,
its text key, its owner and its status (`Store.Spares`). This is said of one record, of a snapshot
and of one operation, and from there of every run of operations (`Store.run_isolates`).
-/

namespace MemoTransfer

open MemoTransfer.Calendar

/-- The row that has taken the place of another one is still the row of that memo, of its owner and
with its status. -/
structure MemoRow.Continues (r' r : MemoRow) : Prop where
  id : r'.id = r.id
  uid : r'.uid = r.uid
  creatorId : r'.creatorId = r.creatorId
  rowStatus : r'.rowStatus = r.rowStatus

theorem MemoRow.Continues.refl (r : MemoRow) : r.Continues r := ⟨rfl, rfl, rfl, rfl⟩

theorem MemoRow.Continues.trans {r r' r'' : MemoRow} (h' : r''.Continues r')
    (h : r'.Continues r) : r''.Continues r :=
  ⟨h'.id.trans h.id, h'.uid.trans h.uid, h'.creatorId.trans h.creatorId,
    h'.rowStatus.trans h.rowStatus⟩

/-- A record does not change the status of the row that it is written over. -/
theorem MemoRow.continues_patch_toPatch (t : MemoRow) (r : MemoRecord) (id : MemoId)
    (options : ImportOptions) : (t.patch (r.toPatch id options)).Continues t :=
  ⟨rfl, rfl, rfl, rfl⟩

namespace Store

variable {s t u : Store} {owner : UserId} {crossed : String → Prop}

/-! ## The rows of a user -/

/-- The rows of a user's memos. -/
def rowsOf (s : Store) (owner : UserId) : List MemoRow := s.memos.filter (·.creatorId = owner)

theorem mem_rowsOf {r : MemoRow} : r ∈ s.rowsOf owner ↔ r ∈ s.memos ∧ r.creatorId = owner := by
  rw [rowsOf, List.mem_filter, decide_eq_true_iff]

theorem rowsOf_withRow {m : Memo} (other : m.creatorId ≠ owner) :
    (s.withRow m).rowsOf owner = s.rowsOf owner := by
  have creator : (MemoRow.ofMemo (s.lastMemo + 1) m).creatorId ≠ owner := other
  rw [rowsOf, withRow, List.filter_append, List.filter_singleton, decide_eq_false creator]
  exact List.append_nil _

theorem rowsOf_withPatch (s : Store) (p : MemoPatch) (owner : UserId) :
    (s.withPatch p).rowsOf owner =
      (s.rowsOf owner).map fun r => if r.id = p.id then r.patch p else r := by
  rw [rowsOf, withPatch, List.filter_map, rowsOf]
  congr 1
  refine List.filter_congr fun r _ => ?_
  rw [Function.comp_apply]
  split <;> rfl

/-! ## Rows that are spared -/

/-- A user has the same memos in both stores. The rows of those with the text keys `crossed` may
have been written over, and all others are as they were. -/
def Spares (s t : Store) (owner : UserId) (crossed : String → Prop) : Prop :=
  List.Forall₂ (fun r r' => r'.Continues r ∧ (r' = r ∨ crossed r.uid)) (s.rowsOf owner)
    (t.rowsOf owner)

theorem Spares.of_rowsOf (h : t.rowsOf owner = s.rowsOf owner) : s.Spares t owner crossed := by
  rw [Spares, h, List.forall₂_same]
  exact fun r _ => ⟨.refl r, .inl rfl⟩

theorem Spares.of_memos (h : t.memos = s.memos) : s.Spares t owner crossed :=
  .of_rowsOf (by rw [rowsOf, h, rowsOf])

theorem Spares.refl (s : Store) : s.Spares s owner crossed := .of_rowsOf rfl

theorem Spares.trans (first : s.Spares t owner crossed) (next : t.Spares u owner crossed) :
    s.Spares u owner crossed := by
  rw [Spares] at first next ⊢
  generalize s.rowsOf owner = rows, t.rowsOf owner = rows', u.rowsOf owner = rows'' at *
  induction first generalizing rows'' with
  | nil => exact next
  | cons h _ ih =>
    cases next with
    | cons h' rest =>
      refine .cons ⟨h'.1.trans h.1, ?_⟩ (ih _ rest)
      rcases h'.2 with rfl | crossed'
      · exact h.2
      · exact .inr (h.1.uid ▸ crossed')

/-- A patch of other rows, or one that a record brings. -/
theorem Spares.withPatch {p : MemoPatch}
    (h : ∀ r ∈ s.rowsOf owner, r.id = p.id → (r.patch p).Continues r ∧ crossed r.uid) :
    s.Spares (s.withPatch p) owner crossed := by
  rw [Spares, rowsOf_withPatch, List.forall₂_map_right_iff, List.forall₂_same]
  intro r hr
  split
  · rename_i same
    exact ⟨(h r hr same).1, .inr (h r hr same).2⟩
  · exact ⟨.refl r, .inl rfl⟩

/-! ## Imports -/

section

variable {actor : UserId} {options : ImportOptions} {now : Int} {r : MemoRecord}

/-- **What a record leaves of the memos of others.** -/
theorem Spares.merged (hs : s.WellFormed) (other : actor ≠ owner)
    (cross : options.validateOnly = false → options.overwriteExisting = true → crossed r.uid) :
    s.Spares (s.merged actor options now r) owner crossed := by
  have step := s.reconciled actor options now r
  generalize s.verdict actor options r = v, s.merged actor options now r = t at step ⊢
  cases step with
  | refused _ => exact .refl s
  | validated _ _ => exact .refl s
  | @updated t fit real stored =>
    have overwrite : options.overwriteExisting = true := by
      by_contra keep
      rw [refusal?_of_stored (by simpa using keep) (by rw [stored]; rfl)] at fit
      cases fit
    refine .withPatch fun q hq same => ⟨q.continues_patch_toPatch r t.id options, ?_⟩
    obtain ⟨there, key⟩ := mem_of_rowByUid? stored
    obtain rfl := hs.eq_of_id (mem_rowsOf.1 hq).1 there same
    rw [key]
    exact cross real overwrite
  | created _ _ _ _ => exact .of_rowsOf (rowsOf_withRow other)
  | unowned _ _ _ _ => exact .refl s

theorem Spares.mergedAll (hs : s.WellFormed) (other : actor ≠ owner) {records : List MemoRecord}
    (cross : options.validateOnly = false → options.overwriteExisting = true →
      ∀ r ∈ records, crossed r.uid) :
    s.Spares (s.mergedAll actor options now records) owner crossed := by
  induction records generalizing s with
  | nil => exact .refl s
  | cons r records ih =>
    have first : s.Spares (s.merged actor options now r) owner crossed :=
      .merged hs other fun real overwrite => cross real overwrite r List.mem_cons_self
    exact first.trans (ih (hs.merged actor options now r) fun real overwrite q hq =>
      cross real overwrite q (List.mem_cons_of_mem _ hq))

end

/-! ## Memos of one's own -/

/-- The memo with the text key is the user's. -/
def Owns (s : Store) (user : User) (uid : String) : Prop :=
  ∃ r ∈ s.memos, r.uid = uid ∧ r.creatorId = user.id

variable {user : User} {uid : String} {r : MemoRow}

theorem rowsMatching_owned (s : Store) (user : User) (uid : String) :
    s.rowsMatching { uid := some uid, creatorId := some user.id } =
      (s.memos.filter (·.uid = uid)).filter (·.creatorId = user.id) := by
  rw [List.filter_filter]
  refine List.filter_congr fun r _ => ?_
  simp [MemoRow.matches, eq_comm, Bool.and_comm]

theorem ownedMemo_of_row (hs : s.WellFormed) (hr : r ∈ s.memos) (owned : r.creatorId = user.id) :
    s.ownedMemo user r.uid = .ok r.memo := by
  have found : s.rowsMatching { uid := some r.uid, creatorId := some user.id } = [r] := by
    rw [rowsMatching_owned, hs.filter_uid, hs.rowByUid?_eq hr]
    exact List.filter_cons_of_pos (decide_eq_true owned)
  rw [ownedMemo, getMemo, listMemos_eq rfl, found, List.mergeSort_singleton]
  rfl

theorem ownedMemo_of_not_owns (h : ¬s.Owns user uid) :
    s.ownedMemo user uid = .error (.memoNotFound uid) := by
  have found : s.rowsMatching { uid := some uid, creatorId := some user.id } = [] := by
    rw [rowsMatching_owned, List.filter_filter, List.filter_eq_nil_iff]
    intro r hr both
    rw [Bool.and_eq_true, decide_eq_true_iff, decide_eq_true_iff] at both
    exact h ⟨r, hr, both.2, both.1⟩
  rw [ownedMemo, getMemo, listMemos_eq rfl, found, List.mergeSort_nil]
  rfl

/-- The row of a memo that is found is the user's. -/
theorem exists_row_of_ownedMemo (hs : s.WellFormed) {m : Memo} (h : s.ownedMemo user uid = .ok m) :
    ∃ r ∈ s.memos, r.uid = uid ∧ r.creatorId = user.id ∧ m = r.memo := by
  by_cases owns : s.Owns user uid
  · obtain ⟨r, hr, rfl, owned⟩ := owns
    rw [ownedMemo_of_row hs hr owned] at h
    cases h
    exact ⟨r, hr, rfl, owned, rfl⟩
  · rw [ownedMemo_of_not_owns owns] at h
    cases h

theorem archiveMemo_of_row (hs : s.WellFormed) (hr : r ∈ s.memos) (owned : r.creatorId = user.id) :
    s.archiveMemo user r.uid = .ok (s.withPatch { id := r.id, rowStatus := some .archived }) := by
  have here : s.hasMemo r.id = true := List.any_eq_true.2 ⟨r, hr, decide_eq_true rfl⟩
  rw [archiveMemo, ownedMemo_of_row hs hr owned]
  exact updateMemo_eq (p := { id := r.id, rowStatus := some .archived }) rfl here

theorem removeMemo_of_row (hs : s.WellFormed) (hr : r ∈ s.memos) (owned : r.creatorId = user.id) :
    s.removeMemo user r.uid = .ok (s.deleteMemo r.id) := by
  rw [removeMemo, ownedMemo_of_row hs hr owned]
  rfl

theorem archiveMemo_of_not_owns (h : ¬s.Owns user uid) :
    s.archiveMemo user uid = .error (.memoNotFound uid) := by
  rw [archiveMemo, ownedMemo_of_not_owns h]
  rfl

theorem removeMemo_of_not_owns (h : ¬s.Owns user uid) :
    s.removeMemo user uid = .error (.memoNotFound uid) := by
  rw [removeMemo, ownedMemo_of_not_owns h]
  rfl

/-- **Each user archives, deletes, lists and exports memos of their own.** -/
structure IsGuarded (s : Store) : Prop where
  archives : ∀ user uid, (∃ t, s.archiveMemo user uid = .ok t) ↔ s.Owns user uid
  removes : ∀ user uid, (∃ t, s.removeMemo user uid = .ok t) ↔ s.Owns user uid
  /-- What is not there for the user is not found, and nothing changes. -/
  refuses : ∀ user uid, ¬s.Owns user uid →
    s.archiveMemo user uid = .error (.memoNotFound uid) ∧
      s.removeMemo user uid = .error (.memoNotFound uid) ∧
      (AccountOperation.archiveMemo user uid).perform s = s ∧
      (AccountOperation.removeMemo user uid).perform s = s
  lists : ∀ user, ∃ memos, s.memosOf user = .ok memos ∧
    ∀ m, m ∈ memos ↔ ∃ r ∈ s.rowsOf user.id, r.memo = m
  exports : ∀ (username : String) (request : ExportRequest) (exportedAt : Instant)
    (response : ExportResponse) (skipped : List SkippedMemo),
    s.exportAs username request exportedAt = .ok (response, skipped) →
      ∃ user snapshot, s.user? username = some user ∧
        Snapshot.decode response.data = .ok snapshot ∧
        ∀ record ∈ snapshot.records, ∃ r ∈ s.rowsOf user.id, s.IsRecordOf request r.memo record

/-- A list holds the user's memos and no others. -/
theorem memosOf_eq (s : Store) (user : User) :
    s.memosOf user = .ok (((s.rowsOf user.id).mergeSort MemoRow.isBefore).map MemoRow.memo) := by
  have own : s.rowsMatching (.byCreator user.id) = s.rowsOf user.id := by
    refine List.filter_congr fun r _ => ?_
    simp [MemoRow.matches, MemoQuery.byCreator, eq_comm]
  rw [memosOf, listMemos_eq rfl, own]

/-- An export that succeeds is one of a known user. -/
theorem exists_user_of_exportAs {username : String} {request : ExportRequest}
    {exportedAt : Instant} {response : ExportResponse} {skipped : List SkippedMemo}
    (h : s.exportAs username request exportedAt = .ok (response, skipped)) :
    ∃ user, s.user? username = some user := by
  obtain ⟨memos, listed, -, -⟩ := exists_memos_of_exportAs h
  obtain ⟨user, session, -⟩ := exists_ok_of_bind listed
  rw [Store.session] at session
  split at session
  · exact ⟨_, ‹_›⟩
  · cases session

theorem Consistent.isGuarded (hs : s.Consistent) : s.IsGuarded where
  archives user uid := by
    constructor
    · rintro ⟨t, h⟩
      by_contra stranger
      rw [archiveMemo_of_not_owns stranger] at h
      cases h
    · rintro ⟨r, hr, rfl, owned⟩
      exact ⟨_, archiveMemo_of_row hs.wellFormed hr owned⟩
  removes user uid := by
    constructor
    · rintro ⟨t, h⟩
      by_contra stranger
      rw [removeMemo_of_not_owns stranger] at h
      cases h
    · rintro ⟨r, hr, rfl, owned⟩
      exact ⟨_, removeMemo_of_row hs.wellFormed hr owned⟩
  refuses user uid stranger := by
    have archive := archiveMemo_of_not_owns stranger
    have remove := removeMemo_of_not_owns stranger
    refine ⟨archive, remove, ?_, ?_⟩
    · rw [AccountOperation.perform, archive, after]
    · rw [AccountOperation.perform, remove, after]
  lists user := by
    refine ⟨_, s.memosOf_eq user, fun m => ?_⟩
    simp only [List.mem_map, (List.mergeSort_perm _ _).mem_iff]
  exports username request exportedAt response skipped h := by
    obtain ⟨user, known⟩ := exists_user_of_exportAs h
    obtain ⟨snapshot, decoded, each⟩ := records_of_exportAs hs known h
    refine ⟨user, snapshot, known, decoded, fun record hr => ?_⟩
    obtain ⟨r, there, owned, brought⟩ := each record hr
    exact ⟨r, mem_rowsOf.2 ⟨there, owned⟩, brought⟩

end Store

/-! ## Operations for others -/

/-- What a user can do with a store, which may also be a list of memos. -/
inductive Activity
  | operation (op : AccountOperation)
  | listMemos (user : User)

/-- The store after the activity. -/
def Activity.perform (s : Store) : Activity → Store
  | operation op => op.perform s
  | listMemos _ => s

/-- The user for whom an operation is carried out, if there is one. -/
def AccountOperation.actor? (s : Store) : AccountOperation → Option UserId
  | ensureUser username => (s.user? username).map User.id
  | addMemo user _ _ _ _ _ => some user.id
  | archiveMemo user _ => some user.id
  | removeMemo user _ => some user.id
  | setContentLimit _ => none
  | exportMemos username _ _ => (s.user? username).map User.id
  | importMemos username _ _ => (s.user? username).map User.id

/-- The user for whom something is done, if there is one. -/
def Activity.actor? (s : Store) : Activity → Option UserId
  | operation op => op.actor? s
  | listMemos user => some user.id

/-- The operation is an import that overwrites and brings a record with the text key. -/
def AccountOperation.Overwrites (uid : String) : AccountOperation → Prop
  | importMemos _ request _ => request.options.validateOnly = false ∧
    request.options.overwriteExisting = true ∧
    ∃ snapshot, request.snapshot = .ok snapshot ∧ ∃ r ∈ snapshot.records, r.uid = uid
  | _ => False

/-- An import that overwrites is done, with a record with the text key. -/
def Activity.Overwrites (uid : String) : Activity → Prop
  | operation op => op.Overwrites uid
  | listMemos _ => False

namespace Store

variable {s : Store} {owner : UserId} {crossed : String → Prop}

/-- Nothing is done for the user. -/
def Others (owner : UserId) : Store → List Activity → Prop
  | _, [] => True
  | s, act :: acts => act.actor? s ≠ some owner ∧ Others owner (act.perform s) acts

theorem Spares.addMemo {user : User} {content : String} {visibility : Visibility} {pinned : Bool}
    {uid : String} {now : Int} {m : Memo} {t : Store} (other : user.id ≠ owner)
    (h : s.addMemo user content visibility pinned uid now = .ok (m, t)) :
    s.Spares t owner crossed := by
  obtain ⟨limit, -, h⟩ := exists_ok_of_bind h
  obtain ⟨-, -, h⟩ := exists_ok_of_bind h
  obtain ⟨-, -, -, rfl⟩ := of_createMemo h
  exact .of_rowsOf (rowsOf_withRow other)

/-- The number of a memo of one user is not that of a memo of another one. -/
theorem id_ne_of_other (hs : s.WellFormed) {user : User} {r q : MemoRow} (other : user.id ≠ owner)
    (hr : r ∈ s.memos) (owned : r.creatorId = user.id) (hq : q ∈ s.rowsOf owner) : q.id ≠ r.id := by
  intro same
  obtain ⟨there, owned'⟩ := mem_rowsOf.1 hq
  obtain rfl := hs.eq_of_id there hr same
  exact other (owned.symm.trans owned')

theorem Spares.archiveMemo (hs : s.WellFormed) {user : User} {uid : String} {t : Store}
    (other : user.id ≠ owner) (h : s.archiveMemo user uid = .ok t) : s.Spares t owner crossed := by
  obtain ⟨m, found, h⟩ := exists_ok_of_bind h
  obtain ⟨r, hr, -, owned, rfl⟩ := exists_row_of_ownedMemo hs found
  rcases of_updateMemo h with rfl | rfl
  · exact .refl t
  · exact .withPatch fun q hq same => absurd same (id_ne_of_other hs other hr owned hq)

theorem Spares.removeMemo (hs : s.WellFormed) {user : User} {uid : String} {t : Store}
    (other : user.id ≠ owner) (h : s.removeMemo user uid = .ok t) : s.Spares t owner crossed := by
  obtain ⟨m, found, h⟩ := exists_ok_of_bind h
  cases h
  obtain ⟨r, hr, -, owned, rfl⟩ := exists_row_of_ownedMemo hs found
  refine .of_rowsOf ?_
  rw [rowsOf, deleteMemo, List.filter_filter, rowsOf]
  refine List.filter_congr fun q hq => ?_
  by_cases own : q.creatorId = owner
  · have apart : q.id ≠ r.id := id_ne_of_other hs other hr owned (mem_rowsOf.2 ⟨hq, own⟩)
    simp [own, apart, MemoRow.memo]
  · simp [own]

theorem Spares.importAs (hs : s.WellFormed) {username : String} {request : ImportRequest}
    {now : Instant} (other : (s.user? username).map User.id ≠ some owner)
    (cross : ∀ uid, (AccountOperation.importMemos username request now).Overwrites uid →
      crossed uid) : s.Spares (s.importAs username request now.seconds).2 owner crossed := by
  rcases importAs_snd hs username request now.seconds with h | ⟨user, snapshot, hu, hr, h⟩
  · rw [h]
    exact .refl s
  · rw [h]
    have actor : user.id ≠ owner := by
      rw [hu] at other
      exact fun same => other (congrArg some same)
    exact .mergedAll hs actor fun real overwrite r hr' =>
      cross r.uid ⟨real, overwrite, snapshot, hr, r, hr', rfl⟩

/-- **What an operation for somebody else leaves of a user's memos.** -/
theorem Spares.operation (hs : s.WellFormed) {op : AccountOperation}
    (other : op.actor? s ≠ some owner) (cross : ∀ uid, op.Overwrites uid → crossed uid) :
    s.Spares (op.perform s) owner crossed := by
  cases op with
  | ensureUser username =>
    refine .of_memos ?_
    rw [AccountOperation.perform, ensureUser]
    split <;> rfl
  | addMemo user content visibility pinned uid now =>
    rw [AccountOperation.perform]
    cases h : s.addMemo user content visibility pinned uid now.seconds with
    | error e => exact .refl s
    | ok x => exact .addMemo (fun same => other (congrArg some same)) h
  | archiveMemo user uid =>
    rw [AccountOperation.perform]
    cases h : s.archiveMemo user uid with
    | error e => exact .refl s
    | ok t => exact .archiveMemo hs (fun same => other (congrArg some same)) h
  | removeMemo user uid =>
    rw [AccountOperation.perform]
    cases h : s.removeMemo user uid with
    | error e => exact .refl s
    | ok t => exact .removeMemo hs (fun same => other (congrArg some same)) h
  | setContentLimit limit =>
    obtain ⟨settings, h⟩ := s.setSetting_eq contentLimitName (Number.natText limit.toNat)
    refine .of_memos ?_
    rw [AccountOperation.perform, setContentLimit, h]
  | exportMemos username request now =>
    have asked : AccountOperation.perform s (.exportMemos username request now) = s :=
      congrArg Prod.snd (s.exportMemos_ends (s.session username) request now)
    rw [asked]
    exact .refl s
  | importMemos username request now => exact .importAs hs other cross

theorem Spares.activity (hs : s.WellFormed) {act : Activity} (other : act.actor? s ≠ some owner)
    (cross : ∀ uid, act.Overwrites uid → crossed uid) : s.Spares (act.perform s) owner crossed := by
  cases act with
  | operation op => exact .operation hs other cross
  | listMemos user => exact .refl s

/-! ## Runs -/

/-- The store after all activities. -/
def performing (s : Store) (acts : List Activity) : Store := acts.foldl Activity.perform s

theorem activity_leads (hs : s.WellFormed) (act : Activity) : s.Leads (act.perform s) := by
  cases act with
  | operation op => exact perform_leads hs op
  | listMemos user => exact .refl

theorem performing_consistent (hs : s.Consistent) (acts : List Activity) :
    (s.performing acts).Consistent := by
  induction acts generalizing s with
  | nil => exact hs
  | cons act acts ih => exact ih ((activity_leads hs.wellFormed act).consistent hs)

/-- **What all that is done for others leaves of a user's memos.** -/
theorem Spares.performing (hs : s.Consistent) {acts : List Activity} (others : Others owner s acts)
    (cross : ∀ act ∈ acts, ∀ uid, act.Overwrites uid → crossed uid) :
    s.Spares (s.performing acts) owner crossed := by
  induction acts generalizing s with
  | nil => exact .refl s
  | cons act acts ih =>
    rw [List.forall_mem_cons] at cross
    have first : s.Spares (act.perform s) owner crossed := .activity hs.wellFormed others.1 cross.1
    exact first.trans (ih ((activity_leads hs.wellFormed act).consistent hs) others.2 cross.2)

/-- **Users are kept apart.** At any time in a run, each user archives, deletes, lists and exports
their own memos only; and whatever is then done for others leaves a user's rows as they are, but for
those with the text key of a record of an import that overwrites, and these stay the rows of the
same memos, of the same owner and with the same status. -/
theorem run_isolates (before acts : List Activity) (owner : UserId) :
    (empty.performing before).IsGuarded ∧
      (Others owner (empty.performing before) acts →
        (empty.performing before).Spares (empty.performing (before ++ acts)) owner
          fun uid => ∃ act ∈ acts, act.Overwrites uid) := by
  have hs := performing_consistent .empty before
  refine ⟨hs.isGuarded, fun others => ?_⟩
  have later : empty.performing (before ++ acts) = (empty.performing before).performing acts :=
    List.foldl_append
  rw [later]
  exact .performing hs others fun act hact uid overwrites => ⟨act, hact, overwrites⟩

/-- The first of two users writes a memo. -/
def shared : List Activity :=
  [.operation (.ensureUser "alice"),
    .operation (.addMemo ⟨1, "alice"⟩ "mine" .ownerOnly false "a" .epoch),
    .operation (.ensureUser "bob")]

/-- The other one brings a record with the same text key. -/
def crossing : List Activity :=
  [.operation (.importMemos "bob" ⟨repeating.encode, "", { overwriteExisting := true }⟩ .epoch)]

/-- The memo stays the one of the first user, and the other one cannot archive it. -/
theorem run_isolates_crossing : ∃ r r',
    (empty.performing shared).rowsOf 1 = [r] ∧
      (empty.performing (shared ++ crossing)).rowsOf 1 = [r'] ∧ r'.Continues r ∧
      (empty.performing shared).archiveMemo ⟨2, "bob"⟩ "a" = .error (.memoNotFound "a") := by
  obtain ⟨guarded, spared⟩ := run_isolates shared crossing 1
  have others : Others 1 (empty.performing shared) crossing := ⟨by decide, trivial⟩
  have kept := spared others
  obtain ⟨r, single, creator⟩ : ∃ r, (empty.performing shared).memos = [r] ∧ r.creatorId = 1 :=
    ⟨_, rfl, rfl⟩
  have own : (empty.performing shared).rowsOf 1 = [r] := by
    rw [rowsOf, single]
    exact List.filter_cons_of_pos (decide_eq_true creator)
  have stranger : ¬(empty.performing shared).Owns ⟨2, "bob"⟩ "a" := by
    rintro ⟨q, hq, -, owned⟩
    rw [single, List.mem_singleton] at hq
    subst hq
    rw [creator] at owned
    exact absurd owned (by decide)
  rw [Spares, own] at kept
  obtain ⟨r', rest, ⟨continues, -⟩, nothing, same⟩ := List.forall₂_cons_left_iff.1 kept
  rw [List.forall₂_nil_left_iff] at nothing
  exact ⟨r, r', own, by rw [same, nothing], continues, (guarded.refuses _ _ stranger).1⟩

end Store

end MemoTransfer
