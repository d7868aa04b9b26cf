import MemoTransfer.Proofs.Store.Sound
import MemoTransfer.Proofs.Transfer.Exporting
import MemoTransfer.Proofs.Transfer.Importing

/-!
# Stores that operations lead to

A user works on a store with the operations of an account; the tables also have operations of their
own, which put in, change and remove whatever rows they are given. A store is in use if the
operations of accounts have led to it (`Store.InUse`), and reached if any operations have
(`Store.Reached`). An operation that fails leaves the store as it was, but for an import, which
keeps what it has written.

What an operation of an account does is said once (`Store.performed`), and what becomes of the memos
follows (`Store.Becomes`). So does what holds of a store in use: its keys are kept, all of its rows
are sound, and it has no attachments and no relations.
-/

namespace MemoTransfer

open MemoTransfer.Calendar

namespace Store

/-- The store after a change, which stays as it was if the change fails. -/
def after (s : Store) : Except Error Store → Store
  | .ok t => t
  | .error _ => s

end Store

/-! ## Operations -/

/-- What a user can ask for, at the time of a clock. -/
inductive AccountOperation
  | ensureUser (username : String)
  | addMemo (user : User) (content : String) (visibility : Visibility) (pinned : Bool)
      (uid : String) (now : Instant)
  | archiveMemo (user : User) (uid : String)
  | removeMemo (user : User) (uid : String)
  | setContentLimit (limit : UInt64)
  | exportMemos (username : String) (request : ExportRequest) (now : Instant)
  | importMemos (username : String) (request : ImportRequest) (now : Instant)

/-- The store after the operation. -/
def AccountOperation.perform (s : Store) : AccountOperation → Store
  | ensureUser username => (s.ensureUser username).2
  | addMemo user content visibility pinned uid now =>
    s.after ((s.addMemo user content visibility pinned uid now.seconds).map Prod.snd)
  | archiveMemo user uid => s.after (s.archiveMemo user uid)
  | removeMemo user uid => s.after (s.removeMemo user uid)
  | setContentLimit limit => s.setContentLimit limit.toNat
  | exportMemos username request now =>
    ((MemoTransfer.exportMemos Store.memoStore (s.session username) request now).run s).2
  | importMemos username request now => (s.importAs username request now.seconds).2

/-- A change of a single table. -/
inductive TableOperation
  | createUser (username : String)
  | createMemo (memo : Memo)
  | updateMemo (patch : MemoPatch)
  | deleteMemo (id : MemoId)
  | createAttachment (uid : String) (memoId : Option MemoId) (filename mimeType : String)
      (size : Int64)
  | createRelation (relation : Relation)
  | setSetting (name value : String)

/-- The store after the change. -/
def TableOperation.perform (s : Store) : TableOperation → Store
  | createUser username => s.after ((s.createUser username).map Prod.snd)
  | createMemo memo => s.after ((s.createMemo memo).map Prod.snd)
  | updateMemo patch => s.after (s.updateMemo patch)
  | deleteMemo id => s.deleteMemo id
  | createAttachment uid memoId filename mimeType size =>
    s.after ((s.createAttachment uid memoId filename mimeType size).map Prod.snd)
  | createRelation relation => s.createRelation relation
  | setSetting name value => s.setSetting name value

namespace Store

/-- Operations of accounts have led to the store. -/
inductive InUse : Store → Prop
  | empty : InUse .empty
  | account {s : Store} (h : InUse s) (op : AccountOperation) : InUse (op.perform s)

/-- Operations of accounts and of tables have led to the store. -/
inductive Reached : Store → Prop
  | empty : Reached .empty
  | account {s : Store} (h : Reached s) (op : AccountOperation) : Reached (op.perform s)
  | table {s : Store} (h : Reached s) (op : TableOperation) : Reached (op.perform s)

/-- A run of operations of accounts. -/
theorem InUse.foldl {s : Store} (h : s.InUse) (ops : List AccountOperation) :
    (ops.foldl AccountOperation.perform s).InUse := by
  induction ops generalizing s with
  | nil => exact h
  | cons op ops ih => exact ih (h.account op)

theorem InUse.reached {s : Store} (h : s.InUse) : s.Reached := by
  induction h with
  | empty => exact .empty
  | account _ op ih => exact .account ih op

/-! ## What an operation does to a table -/

/-- The store with one more user. -/
def withUser (s : Store) (username : String) : Store :=
  { s with users := s.users ++ [⟨s.lastUser + 1, username⟩], lastUser := s.lastUser + 1 }

/-- The store with one more attachment, under the next number. -/
def withAttachment (s : Store) (a : Attachment) : Store :=
  { s with
    attachments := s.attachments ++ [{ a with id := s.lastAttachment + 1 }]
    lastAttachment := s.lastAttachment + 1 }

/-- The store with one more relation. -/
def withRelation (s : Store) (r : Relation) : Store := { s with relations := s.relations ++ [r] }

/-- What a change of a single table does to a store. -/
inductive Alters (s : Store) : Store → Prop
  | unchanged : s.Alters s
  | user {username : String} (free : s.user? username = none) : s.Alters (s.withUser username)
  | memo {m : Memo} (free : s.rowByUid? m.uid = none)
      (known : s.users.any (·.id = m.creatorId) = true) : s.Alters (s.withRow m)
  | patched (p : MemoPatch) : s.Alters (s.withPatch p)
  | removed (id : MemoId) : s.Alters (s.deleteMemo id)
  | attachment {a : Attachment} (free : s.attachments.any (·.uid = a.uid) = false)
      (there : ∀ id ∈ a.memoId, s.hasMemo id = true) : s.Alters (s.withAttachment a)
  | relation {r : Relation} (known : RelationKind.ofName r.kind.name = r.kind)
      (free : r ∉ s.relations) : s.Alters (s.withRelation r)
  | setting (name value : String) : s.Alters (s.setSetting name value)

theorem createUser_alters {s t : Store} {username : String} {user : User}
    (h : s.createUser username = .ok (user, t)) : s.Alters t := by
  unfold createUser at h
  split at h
  · cases h
  · rename_i free
    cases h
    have free' : s.user? username = none := by simpa using free
    exact .user free'

theorem createMemo_alters {s t : Store} {m m' : Memo} (h : s.createMemo m = .ok (m', t)) :
    s.Alters t := by
  obtain ⟨free, known, -, rfl⟩ := of_createMemo h
  exact .memo free known

theorem updateMemo_alters {s t : Store} {p : MemoPatch} (h : s.updateMemo p = .ok t) :
    s.Alters t := by
  rcases of_updateMemo h with rfl | rfl
  · exact .unchanged
  · exact .patched p

theorem createAttachment_alters {s t : Store} {uid : String} {memoId : Option MemoId}
    {filename mimeType : String} {size : Int64} {id : Int}
    (h : s.createAttachment uid memoId filename mimeType size = .ok (id, t)) : s.Alters t := by
  unfold createAttachment at h
  split at h
  · cases h
  · rename_i free
    split at h
    · cases h
    · rename_i there
      cases h
      have there' : ∀ id ∈ memoId, s.hasMemo id = true := by
        rintro id rfl
        simpa using there
      have free' : s.attachments.any (·.uid = uid) = false := by simpa using free
      exact .attachment (a := ⟨0, uid, memoId, filename, mimeType, size⟩) free' there'

theorem createRelation_alters (s : Store) (r : Relation) : s.Alters (s.createRelation r) := by
  unfold createRelation
  dsimp only
  split
  · exact .unchanged
  · rename_i free
    refine .relation ?_ free
    rw [RelationKind.name_ofName]

/-- **What a change of a table does to a store.** -/
theorem perform_alters (s : Store) (op : TableOperation) : s.Alters (op.perform s) := by
  cases op with
  | createUser username =>
    rw [TableOperation.perform]
    cases h : s.createUser username with
    | error e => exact .unchanged
    | ok x => exact createUser_alters h
  | createMemo memo =>
    rw [TableOperation.perform]
    cases h : s.createMemo memo with
    | error e => exact .unchanged
    | ok x => exact createMemo_alters h
  | updateMemo patch =>
    rw [TableOperation.perform]
    cases h : s.updateMemo patch with
    | error e => exact .unchanged
    | ok t => exact updateMemo_alters h
  | deleteMemo id => exact .removed id
  | createAttachment uid memoId filename mimeType size =>
    rw [TableOperation.perform]
    cases h : s.createAttachment uid memoId filename mimeType size with
    | error e => exact .unchanged
    | ok x => exact createAttachment_alters h
  | createRelation relation => exact s.createRelation_alters relation
  | setSetting name value => exact .setting name value

/-! ## What an operation does to a store -/

/-- The content is within the limit of the store. -/
def Allows (s : Store) (content : String) : Prop :=
  ∃ limit, s.contentLimit = .ok limit ∧ byteLength content ≤ limit

/-- What an operation of an account does to a store. -/
inductive Performed (s : Store) : AccountOperation → Store → Prop
  | unchanged {op : AccountOperation} (other : ∀ limit, op ≠ .setContentLimit limit) :
      s.Performed op s
  | enrolled {username : String} (free : s.user? username = none) :
      s.Performed (.ensureUser username) (s.withUser username)
  | written {user : User} {content : String} {visibility : Visibility} {pinned : Bool}
      {uid : String} {now : Instant} {m : Memo} (sound : m.IsSound) (allowed : s.Allows m.content)
      (free : s.rowByUid? m.uid = none) (known : s.users.any (·.id = m.creatorId) = true) :
      s.Performed (.addMemo user content visibility pinned uid now) (s.withRow m)
  | archived {user : User} {uid : String} (id : MemoId) :
      s.Performed (.archiveMemo user uid) (s.withPatch { id := id, rowStatus := some .archived })
  | removed {user : User} {uid : String} (id : MemoId) :
      s.Performed (.removeMemo user uid) (s.deleteMemo id)
  | limited (limit : UInt64) :
      s.Performed (.setContentLimit limit) (s.setContentLimit limit.toNat)
  | imported {username : String} {request : ImportRequest} {now : Instant} (owner : UserId)
      {records : List MemoRecord} (finite : ∀ r ∈ records, r.IsFinite) :
      s.Performed (.importMemos username request now)
        (s.mergedAll owner request.options now.seconds records)

variable {s : Store}

theorem setSetting_eq (s : Store) (name value : String) :
    ∃ settings, s.setSetting name value = { s with settings := settings } := by
  unfold setSetting
  split
  · exact ⟨_, rfl⟩
  · exact ⟨_, rfl⟩

/-- A memo that is written has a new key, a known creator and a content within the limit. -/
theorem of_addMemo {user : User} {content : String} {visibility : Visibility} {pinned : Bool}
    {uid : String} {now : Instant} {m : Memo} {t : Store}
    (h : s.addMemo user content visibility pinned uid now.seconds = .ok (m, t)) :
    s.Performed (.addMemo user content visibility pinned uid now) t := by
  obtain ⟨limit, hl, h⟩ := exists_ok_of_bind h
  obtain ⟨⟨⟩, fits, h⟩ := exists_ok_of_bind h
  obtain ⟨free, known, -, rfl⟩ := of_createMemo h
  have short : byteLength content ≤ limit := by
    unfold checkLength at fits
    split at fits
    · cases fits
    · exact Nat.le_of_not_lt ‹_›
  have finite : (Payload.ofContent content none).IsFinite := fun l hl => by cases hl
  exact .written ⟨⟨now.inRange, now.inRange, fun t ht => by cases ht⟩, finite, rfl⟩
    ⟨limit, hl, short⟩ free known

/-- **What an operation of an account does.** -/
theorem performed (hs : s.WellFormed) (op : AccountOperation) : s.Performed op (op.perform s) := by
  cases op with
  | ensureUser username =>
    rw [AccountOperation.perform, ensureUser]
    split
    · exact .unchanged fun limit h => by cases h
    · rename_i free
      exact .enrolled free
  | addMemo user content visibility pinned uid now =>
    rw [AccountOperation.perform]
    cases h : s.addMemo user content visibility pinned uid now.seconds with
    | error e => exact .unchanged fun limit h => by cases h
    | ok x => exact of_addMemo h
  | archiveMemo user uid =>
    rw [AccountOperation.perform]
    cases h : s.archiveMemo user uid with
    | error e => exact .unchanged fun limit h => by cases h
    | ok t =>
      obtain ⟨memo, -, h⟩ := exists_ok_of_bind h
      rcases of_updateMemo h with rfl | rfl
      · exact .unchanged fun limit h => by cases h
      · exact .archived memo.id
  | removeMemo user uid =>
    rw [AccountOperation.perform]
    cases h : s.removeMemo user uid with
    | error e => exact .unchanged fun limit h => by cases h
    | ok t =>
      obtain ⟨memo, -, h⟩ := exists_ok_of_bind h
      cases h
      exact .removed memo.id
  | setContentLimit limit => exact .limited limit
  | exportMemos username request now =>
    have asked : AccountOperation.perform s (.exportMemos username request now) = s :=
      congrArg Prod.snd (s.exportMemos_ends (s.session username) request now)
    rw [asked]
    exact .unchanged fun limit h => by cases h
  | importMemos username request now =>
    rw [AccountOperation.perform]
    rcases importAs_snd hs username request now.seconds with h | ⟨user, snapshot, -, hr, h⟩
    · rw [h]
      exact .unchanged fun limit h => by cases h
    · rw [h]
      exact .imported user.id (request.isFinite_snapshot hr)

/-! ## What an operation does to the memos -/

/-- What an operation of an account does to the memos of a store. -/
inductive Becomes (s : Store) : Store → Prop
  | same {t : Store} (memos : t.memos = s.memos) (last : t.lastMemo = s.lastMemo)
      (attachments : t.attachments = s.attachments) (relations : t.relations = s.relations) :
      s.Becomes t
  | written {m : Memo} (sound : m.IsSound) (free : s.rowByUid? m.uid = none) :
      s.Becomes (s.withRow m)
  | marked (id : MemoId) (status : RowStatus) :
      s.Becomes (s.withPatch { id := id, rowStatus := some status })
  | removed (id : MemoId) : s.Becomes (s.deleteMemo id)
  | imported (owner : UserId) (options : ImportOptions) (now : Instant) {records : List MemoRecord}
      (finite : ∀ r ∈ records, r.IsFinite) :
      s.Becomes (s.mergedAll owner options now.seconds records)

theorem Performed.becomes {t : Store} {op : AccountOperation} (h : s.Performed op t) :
    s.Becomes t := by
  cases h with
  | unchanged _ => exact .same rfl rfl rfl rfl
  | enrolled _ => exact .same rfl rfl rfl rfl
  | written sound _ free _ => exact .written sound free
  | archived id => exact .marked id .archived
  | removed id => exact .removed id
  | limited limit =>
    obtain ⟨settings, h⟩ := s.setSetting_eq contentLimitName (Number.natText limit.toNat)
    rw [setContentLimit, h]
    exact .same rfl rfl rfl rfl
  | imported owner finite => exact .imported owner _ _ finite

/-- **What an operation of an account does to the memos.** -/
theorem perform_becomes (hs : s.WellFormed) (op : AccountOperation) : s.Becomes (op.perform s) :=
  (performed hs op).becomes

/-! ## What holds of every store -/

theorem Becomes.wellFormed {t : Store} (hs : s.WellFormed) (h : s.Becomes t) : t.WellFormed := by
  cases h with
  | same memos last _ _ => exact hs.of_memos memos last
  | written _ free => exact hs.withRow free
  | marked id status => exact hs.withPatch _
  | removed id => exact hs.deleteMemo id
  | imported owner options now _ => exact hs.mergedAll owner options now.seconds _

theorem Alters.wellFormed {t : Store} (hs : s.WellFormed) (h : s.Alters t) : t.WellFormed := by
  cases h with
  | unchanged => exact hs
  | user _ => exact hs.of_memos rfl rfl
  | memo free _ => exact hs.withRow free
  | patched p => exact hs.withPatch p
  | removed id => exact hs.deleteMemo id
  | attachment _ _ => exact hs.of_memos rfl rfl
  | relation _ _ => exact hs.of_memos rfl rfl
  | setting name value =>
    obtain ⟨settings, h⟩ := s.setSetting_eq name value
    rw [h]
    exact hs.of_memos rfl rfl

/-- **The keys of a store that operations have led to are kept.** -/
theorem Reached.wellFormed (h : s.Reached) : s.WellFormed := by
  induction h with
  | empty => exact .empty
  | account _ op ih => exact (perform_becomes ih op).wellFormed ih
  | table _ op ih => exact (perform_alters _ op).wellFormed ih

theorem InUse.wellFormed (h : s.InUse) : s.WellFormed := h.reached.wellFormed

/-! ## What holds of a store in use -/

/-- All rows of memos are sound. -/
def IsSound (s : Store) : Prop := ∀ r ∈ s.memos, r.IsSound

namespace IsSound

theorem withRow (hs : s.IsSound) {m : Memo} (hm : m.IsSound) : (s.withRow m).IsSound := by
  intro r hr
  rcases List.mem_append.1 hr with hr | hr
  · exact hs r hr
  · rw [List.mem_singleton.1 hr]
    exact .of_memo hm _

theorem withPatch (hs : s.IsSound) {p : MemoPatch}
    (hp : ∀ r ∈ s.memos, (r.memo.patch p).IsSound) : (s.withPatch p).IsSound := by
  intro r hr
  obtain ⟨t, ht, rfl⟩ := List.mem_map.1 hr
  split
  · exact (hs t ht).patch (hp t ht)
  · exact hs t ht

theorem merged (hs : s.IsSound) {r : MemoRecord} (hr : r.IsFinite) (owner : UserId)
    (options : ImportOptions) (now : Instant) :
    (s.merged owner options now.seconds r).IsSound := by
  have step := s.reconciled owner options now.seconds r
  generalize s.verdict owner options r = v, s.merged owner options now.seconds r = t at step ⊢
  cases step with
  | refused _ => exact hs
  | validated _ _ => exact hs
  | updated _ _ _ => exact hs.withPatch fun t ht => r.isSound_patch hr (hs t ht).memo _ options
  | created _ _ _ _ => exact hs.withRow (r.isSound_toMemo hr owner options now)
  | unowned _ _ _ _ => exact hs

theorem mergedAll (hs : s.IsSound) {records : List MemoRecord} (hr : ∀ r ∈ records, r.IsFinite)
    (owner : UserId) (options : ImportOptions) (now : Instant) :
    (s.mergedAll owner options now.seconds records).IsSound := by
  induction records generalizing s with
  | nil => exact hs
  | cons r records ih =>
    rw [List.forall_mem_cons] at hr
    exact ih (hs.merged hr.1 owner options now) hr.2

end IsSound

theorem Becomes.isSound {t : Store} (hs : s.IsSound) (h : s.Becomes t) : t.IsSound := by
  cases h with
  | same memos last _ _ =>
    unfold IsSound
    rw [memos]
    exact hs
  | written sound free => exact hs.withRow sound
  | marked id status =>
    refine hs.withPatch fun r hr => ?_
    have sound := (hs r hr).memo
    exact ⟨⟨sound.created, sound.updated, sound.displayed⟩, sound.isFinite, sound.property⟩
  | removed id => exact fun r hr => hs r (List.mem_of_mem_filter hr)
  | imported owner options now finite => exact hs.mergedAll finite owner options now

/-- **All rows of a store in use are sound.** -/
theorem InUse.isSound (h : s.InUse) : s.IsSound := by
  induction h with
  | empty => exact fun r hr => absurd hr List.not_mem_nil
  | account hs op ih => exact (perform_becomes hs.wellFormed op).isSound ih

theorem Becomes.references {t : Store} (hs : s.attachments = [] ∧ s.relations = [])
    (h : s.Becomes t) : t.attachments = [] ∧ t.relations = [] := by
  cases h with
  | same _ _ attachments relations => exact ⟨attachments.trans hs.1, relations.trans hs.2⟩
  | written _ _ => exact hs
  | marked _ _ => exact hs
  | removed id => simp only [deleteMemo, hs, List.map_nil, List.filter_nil, and_self]
  | imported owner options now _ =>
    obtain ⟨memos, last, e⟩ := exists_mergedAll_eq s owner options now.seconds _
    rw [e]
    exact hs

/-- No operation of an account puts an attachment or a relation in. -/
theorem InUse.references (h : s.InUse) : s.attachments = [] ∧ s.relations = [] := by
  induction h with
  | empty => exact ⟨rfl, rfl⟩
  | account hs op ih => exact (perform_becomes hs.wellFormed op).references ih

end Store

end MemoTransfer
