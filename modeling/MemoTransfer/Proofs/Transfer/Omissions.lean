import Mathlib.Data.List.Basic
import Mathlib.Data.List.Forall2
import MemoTransfer.Proofs.Transfer.Calls
import MemoTransfer.Transfer.Export

/-!
# What an export leaves out

A store may fail any lookup, for a reason of its own. As long as the answer to a lookup does not
depend on when it is asked for (`MemoStore.Answers`), an export fails just if the memos cannot be
listed. Otherwise it brings a record for each memo of which all lookups succeed
(`Lookups.complete`), and leaves the others out, each with its error (`buildSnapshot_omits`). A
record is made of the lookups for its own memo alone, so it is the same whatever becomes of the
others (`Lookups.MendedBy.recordOf_eq`).

The run of an export on such a store is the run of `Lookups.record` on its answers: each action has
a fixed result, and only calls that the request asks for are noted (`Steady`).
-/

namespace MemoTransfer

open MemoTransfer.Calendar

variable {σ α β : Type}

/-! ## Actions with a fixed result -/

/-- In every state the two actions end with `x`, and the calls that are noted are allowed. -/
def Steady (allowed : Call → Prop) (plain : ExceptT Error (StateM σ) α)
    (watched : ExceptT Error (StateM (Watched σ)) α) (x : Except Error α) : Prop :=
  ∀ s, ∃ t calls, Noted plain watched s x t calls ∧ ∀ c ∈ calls, allowed c

namespace Steady

variable {allowed : Call → Prop} {p : ExceptT Error (StateM σ) α}
  {w : ExceptT Error (StateM (Watched σ)) α} {x : Except Error α}

theorem pure (v : α) : Steady allowed (Pure.pure v : ExceptT Error (StateM σ) α) (Pure.pure v)
    (.ok v) :=
  fun s => ⟨s, [], .pure v s, by simp⟩

/-- A call whose answer does not depend on the state. -/
theorem call {call : Except Error α → Call} (fixed : ∀ s, (p.run.run s).1 = x)
    (asked : allowed (call x)) : Steady allowed p (.mk (watch p.run call)) x := by
  intro s
  have noted := Noted.call p call s
  rw [fixed s] at noted
  exact ⟨_, _, noted, by simpa using asked⟩

theorem bind {f : α → ExceptT Error (StateM σ) β} {g : α → ExceptT Error (StateM (Watched σ)) β}
    {y : α → Except Error β} (h : Steady allowed p w x)
    (h' : ∀ v, Steady allowed (f v) (g v) (y v)) :
    Steady allowed (p >>= f) (w >>= g) (x >>= y) := by
  intro s
  obtain ⟨t, calls, noted, asked⟩ := h s
  cases x with
  | error e => exact ⟨t, calls, noted.bind_error, asked⟩
  | ok v =>
    obtain ⟨u, later, noted', asked'⟩ := h' v t
    exact ⟨u, calls ++ later, noted.bind noted', List.forall_mem_append.2 ⟨asked, asked'⟩⟩

/-- An action on a condition. -/
theorem bind_if {c : Bool} {v : α} {f : α → ExceptT Error (StateM σ) β}
    {g : α → ExceptT Error (StateM (Watched σ)) β} {y : α → Except Error β}
    (h : c = true → Steady allowed p w x) (h' : ∀ v, Steady allowed (f v) (g v) (y v)) :
    Steady allowed (if c then p >>= f else Pure.pure v >>= f)
      (if c then w >>= g else Pure.pure v >>= g) ((if c then x else .ok v) >>= y) := by
  cases c with
  | true => exact (h rfl).bind h'
  | false => exact (pure v).bind h'

theorem mapM {f : β → ExceptT Error (StateM σ) α} {g : β → ExceptT Error (StateM (Watched σ)) α}
    {y : β → Except Error α} (h : ∀ b, Steady allowed (f b) (g b) (y b)) (bs : List β) :
    Steady allowed (bs.mapM f) (bs.mapM g) (bs.mapM y) := by
  induction bs with
  | nil => exact .pure []
  | cons b bs ih =>
    simp only [List.mapM_cons]
    exact (h b).bind fun v => ih.bind fun vs => .pure (v :: vs)

end Steady

/-! ## Lookups -/

/-- What the lookups of an export come to. -/
structure Lookups where
  /-- The memos that the request asks for. -/
  memos : Except Error (List Memo)
  /-- The memo with a number, unless it is gone. -/
  memo : MemoId → Except Error (Option Memo)
  attachments : MemoId → Except Error (List Attachment)
  relations : MemoId → Except Error (List Relation)

/-- In every state the store gives these answers to the lookups that the request needs. -/
structure MemoStore.Answers (store : MemoStore (StateM σ)) (request : ExportRequest)
    (owner : UserId) (l : Lookups) : Prop where
  memos : ∀ s, ((store.listMemos (request.query owner)).run.run s).1 = l.memos
  memo : request.includeRelations = true →
    ∀ id s, ((store.getMemo (.byId id)).run.run s).1 = l.memo id
  attachments : request.includeAttachments = true →
    ∀ id s, ((store.listAttachments id).run.run s).1 = l.attachments id
  relations : request.includeRelations = true →
    ∀ id s, ((store.listRelations id).run.run s).1 = l.relations id

/-- The call is a lookup that the request needs. -/
def Call.IsNeeded (request : ExportRequest) (owner : UserId) : Call → Prop
  | listMemos query _ => query = request.query owner
  | getMemo query _ => request.includeRelations = true ∧ ∃ id, query = .byId id
  | listAttachments _ _ => request.includeAttachments = true
  | listRelations _ _ => request.includeRelations = true
  | _ => False

namespace Lookups

variable (l : Lookups) (request : ExportRequest) (m : Memo)

/-- The attachments of the memo, if the request asks for them. -/
def attachmentsFor : Except Error (List Attachment) :=
  if request.includeAttachments then l.attachments m.id else .ok []

/-- The relations of the memo, if the request asks for them. -/
def relationsFor : Except Error (List Relation) :=
  if request.includeRelations then l.relations m.id else .ok []

/-- All lookups for the memo succeed: those of its attachments and of its relations, if the request
asks for them, and that of the target of each relation. -/
def complete : Bool :=
  (l.attachmentsFor request m).isOk && match l.relationsFor request m with
    | .ok relations => relations.all fun r => (l.memo r.relatedId).isOk
    | .error _ => false

/-- A lookup for the memo fails with the error. -/
def Fails (e : Error) : Prop :=
  l.attachmentsFor request m = .error e ∨ l.relationsFor request m = .error e ∨
    ∃ relations, l.relationsFor request m = .ok relations ∧
      ∃ r ∈ relations, l.memo r.relatedId = .error e

/-- The exchanged form of a relation whose target is there. -/
def target? (r : Relation) : Option RelationRef :=
  (l.memo r.relatedId).toOption.join.map fun memo => ⟨memo.uid, r.kind.name⟩

/-- The record of a memo, out of the lookups that succeed. -/
def recordOf : MemoRecord :=
  { MemoRecord.ofMemo m with
    attachments := ((l.attachmentsFor request m).toOption.getD []).map .ofAttachment
    relations := ((l.relationsFor request m).toOption.getD []).filterMap l.target? }

/-! ## One memo -/

/-- The exchanged form of a relation, unless its target is gone. -/
def ref? (r : Relation) : Except Error (Option RelationRef) := do
  let related ← l.memo r.relatedId
  return related.map fun memo => ⟨memo.uid, r.kind.name⟩

/-- The record of a memo, or the first error of its lookups. -/
def record : Except Error MemoRecord := do
  let attachments ← l.attachmentsFor request m
  let relations ← l.relationsFor request m
  let refs ← relations.mapM l.ref?
  return { MemoRecord.ofMemo m with
    attachments := attachments.map .ofAttachment
    relations := refs.filterMap id }

variable {l request m} {store : MemoStore (StateM σ)} {owner : UserId}

theorem relationRef?_steady (answers : store.Answers request owner l)
    (asked : request.includeRelations = true) (r : Relation) :
    Steady (Call.IsNeeded request owner) (relationRef? store r) (relationRef? store.watched r)
      (l.ref? r) :=
  (Steady.call (answers.memo asked r.relatedId) ⟨asked, _, rfl⟩).bind fun _ => .pure _

/-- The record of a memo is made of the answers of the store. -/
theorem exportMemo_steady (answers : store.Answers request owner l) (m : Memo) :
    Steady (Call.IsNeeded request owner) (exportMemo store request m)
      (exportMemo store.watched request m) (l.record request m) := by
  unfold record attachmentsFor relationsFor
  refine .bind_if (fun asked => .call (answers.attachments asked m.id) asked) fun attachments => ?_
  cases asked : request.includeRelations with
  | true =>
    refine (Steady.call (answers.relations asked m.id) asked).bind fun relations => ?_
    exact (Steady.mapM (relationRef?_steady answers asked) relations).bind fun refs => .pure _
  | false => exact .pure _

theorem ref?_of_ok {r : Relation} {target : Option Memo} (h : l.memo r.relatedId = .ok target) :
    l.ref? r = .ok (l.target? r) := by
  rw [ref?, target?, h]
  rfl

theorem ref?_of_error {r : Relation} {e : Error} (h : l.memo r.relatedId = .error e) :
    l.ref? r = .error e := by
  rw [ref?, h]
  rfl

/-- The targets of relations are found, or the lookup of one of them fails. -/
theorem refs_cases (l : Lookups) (relations : List Relation) :
    (relations.all (fun r => (l.memo r.relatedId).isOk) = true ∧
      relations.mapM l.ref? = .ok (relations.map l.target?)) ∨
    (relations.all (fun r => (l.memo r.relatedId).isOk) = false ∧
      ∃ r ∈ relations, ∃ e, l.memo r.relatedId = .error e ∧ relations.mapM l.ref? = .error e) := by
  induction relations with
  | nil => exact .inl ⟨rfl, rfl⟩
  | cons r relations ih =>
    rw [List.all_cons, List.mapM_cons]
    cases found : l.memo r.relatedId with
    | error e =>
      refine .inr ⟨rfl, r, List.mem_cons_self, e, found, ?_⟩
      rw [ref?_of_error found]
      rfl
    | ok target =>
      rw [ref?_of_ok found]
      rcases ih with ⟨all, rest⟩ | ⟨some, r', hr', e, failed, rest⟩
      · refine .inl ⟨all, ?_⟩
        rw [rest]
        rfl
      · refine .inr ⟨some, r', List.mem_cons_of_mem r hr', e, failed, ?_⟩
        rw [rest]
        rfl

/-- **A memo has a record just if all lookups for it succeed.** -/
theorem record_cases (l : Lookups) (request : ExportRequest) (m : Memo) :
    (l.complete request m = true ∧ l.record request m = .ok (l.recordOf request m)) ∨
    (l.complete request m = false ∧
      ∃ e, l.record request m = .error e ∧ l.Fails request m e) := by
  unfold complete record recordOf Fails
  cases l.attachmentsFor request m with
  | error e => exact .inr ⟨rfl, e, rfl, .inl rfl⟩
  | ok attachments =>
    cases l.relationsFor request m with
    | error e => exact .inr ⟨rfl, e, rfl, .inr (.inl rfl)⟩
    | ok relations =>
      rcases l.refs_cases relations with ⟨all, refs⟩ | ⟨some, r, hr, e, failed, refs⟩
      · refine .inl ⟨all, ?_⟩
        show (relations.mapM l.ref? >>= _) = _
        rw [refs]
        show Except.ok _ = _
        rw [List.filterMap_map]
        rfl
      · refine .inr ⟨some, e, ?_, .inr (.inr ⟨relations, rfl, r, hr, failed⟩)⟩
        show (relations.mapM l.ref? >>= _) = _
        rw [refs]
        rfl

/-! ## All memos -/

/-- The memo with the error of a lookup for it. -/
def Omits (l : Lookups) (request : ExportRequest) (m : Memo) (omitted : SkippedMemo) : Prop :=
  omitted.id = m.id ∧ l.Fails request m omitted.error

theorem exportEntry_steady (answers : store.Answers request owner l) (m : Memo) :
    Steady (Call.IsNeeded request owner) (ExceptT.lift (exportEntry store request m))
      (ExceptT.lift (exportEntry store.watched request m))
      (.ok ((l.record request m).mapError (SkippedMemo.mk m.id))) := by
  intro s
  obtain ⟨t, calls, noted, needed⟩ := exportMemo_steady answers m s
  exact ⟨t, calls, .lift (exportEntry_run_of_ends noted.plain) fun before =>
    exportEntry_run_of_ends (noted.watched before), needed⟩

/-- The memos of which all lookups succeed have records, and the others are left out. -/
theorem entries_eq (l : Lookups) (request : ExportRequest) (memos : List Memo) :
    (memos.map fun m => (l.record request m).mapError (SkippedMemo.mk m.id)).filterMap
        Except.toOption = (memos.filter (l.complete request)).map (l.recordOf request) ∧
      List.Forall₂ (l.Omits request) (memos.filter (!l.complete request ·))
        ((memos.map fun m => (l.record request m).mapError (SkippedMemo.mk m.id)).filterMap
          fun entry => match entry with
            | .ok _ => none
            | .error memo => some memo) := by
  induction memos with
  | nil => exact ⟨rfl, .nil⟩
  | cons m memos ih =>
    rw [List.map_cons, List.filter_cons, List.filter_cons, List.filterMap_cons,
      List.filterMap_cons]
    rcases l.record_cases request m with ⟨complete, recorded⟩ | ⟨incomplete, e, failed, fails⟩
    · rw [complete, recorded]
      exact ⟨congrArg (_ :: ·) ih.1, ih.2⟩
    · rw [incomplete, failed]
      exact ⟨ih.1, .cons ⟨rfl, fails⟩ ih.2⟩

/-- A lookup that succeeds does so in the other ones, too, with the same answer. -/
structure MendedBy (l mended : Lookups) : Prop where
  memo : ∀ {id : MemoId} {found : Option Memo}, l.memo id = .ok found → mended.memo id = .ok found
  attachments : ∀ {id : MemoId} {all : List Attachment},
    l.attachments id = .ok all → mended.attachments id = .ok all
  relations : ∀ {id : MemoId} {all : List Relation},
    l.relations id = .ok all → mended.relations id = .ok all

theorem MendedBy.attachmentsFor {mended : Lookups} (h : l.MendedBy mended) {all : List Attachment}
    (found : l.attachmentsFor request m = .ok all) :
    mended.attachmentsFor request m = .ok all := by
  unfold Lookups.attachmentsFor at found ⊢
  split at found
  · rename_i asked
    rw [if_pos asked]
    exact h.attachments found
  · rename_i spared
    rw [if_neg spared]
    exact found

theorem MendedBy.relationsFor {mended : Lookups} (h : l.MendedBy mended) {all : List Relation}
    (found : l.relationsFor request m = .ok all) :
    mended.relationsFor request m = .ok all := by
  unfold Lookups.relationsFor at found ⊢
  split at found
  · rename_i asked
    rw [if_pos asked]
    exact h.relations found
  · rename_i spared
    rw [if_neg spared]
    exact found

/-- **A record stays the same when other lookups are mended.** -/
theorem MendedBy.recordOf_eq {mended : Lookups} (h : l.MendedBy mended)
    (complete : l.complete request m = true) :
    mended.complete request m = true ∧ mended.recordOf request m = l.recordOf request m := by
  unfold Lookups.complete at complete
  unfold Lookups.complete recordOf
  cases attachments : l.attachmentsFor request m with
  | error e =>
    rw [attachments] at complete
    cases complete
  | ok all =>
    rw [attachments] at complete
    cases relations : l.relationsFor request m with
    | error e =>
      rw [relations] at complete
      cases complete
    | ok rs =>
      rw [relations] at complete
      have targets : ∀ r ∈ rs, mended.memo r.relatedId = l.memo r.relatedId := by
        intro r hr
        have found := List.all_eq_true.1 complete r hr
        cases e : l.memo r.relatedId with
        | error e' =>
          rw [e] at found
          cases found
        | ok target => exact h.memo e
      rw [h.attachmentsFor attachments, h.relationsFor relations]
      refine ⟨List.all_eq_true.2 fun r hr => ?_, ?_⟩
      · rw [targets r hr]
        exact List.all_eq_true.1 complete r hr
      · have same : rs.filterMap mended.target? = rs.filterMap l.target? :=
          List.filterMap_congr fun r hr => by rw [target?, target?, targets r hr]
        show { MemoRecord.ofMemo m with
          attachments := all.map AttachmentRef.ofAttachment
          relations := rs.filterMap mended.target? } = _
        rw [same]
        rfl

/-- What an export comes to, given the answers of the store. -/
theorem buildSnapshot_steady {user : User} (answers : store.Answers request user.id l)
    (exportedAt : Instant) :
    Steady (Call.IsNeeded request user.id) (buildSnapshot store user request exportedAt)
      (buildSnapshot store.watched user request exportedAt) (l.memos >>= fun memos =>
        let entries := memos.map fun m => (l.record request m).mapError (SkippedMemo.mk m.id)
        .ok (.ofRecords exportedAt (entries.filterMap Except.toOption),
          entries.filterMap fun entry => match entry with
            | .ok _ => none
            | .error memo => some memo)) := by
  have listed : Steady (Call.IsNeeded request user.id) (store.listMemos (request.query user.id))
      (store.watched.listMemos (request.query user.id)) l.memos := .call answers.memos rfl
  refine listed.bind fun memos => ?_
  have entries := Steady.mapM (exportEntry_steady answers) memos
  rw [show memos.mapM (fun m => Except.ok _) = _ from List.mapM_pure] at entries
  exact entries.bind fun entries => .pure _

end Lookups

/-- **An export leaves out only what fails.** Let the lookups that a request needs be answered by a
store in the same way at any moment. Then an export asks for nothing else. It fails just if the
memos cannot be listed, with the error of that. Otherwise it brings the records of the memos of
which all lookups succeed, in order, and leaves out the others, each with an error of one of its
lookups; and a record is the same if lookups for other memos are mended. -/
theorem buildSnapshot_omits {store : MemoStore (StateM σ)} {user : User} {request : ExportRequest}
    {l : Lookups} (answers : store.Answers request user.id l) (exportedAt : Instant) (s : σ) :
    ∃ x t calls,
      Noted (buildSnapshot store user request exportedAt)
        (buildSnapshot store.watched user request exportedAt) s x t calls ∧
      (∀ c ∈ calls, c.IsNeeded request user.id) ∧
      (∀ e, x = .error e ↔ l.memos = .error e) ∧
      ∀ memos, l.memos = .ok memos →
        (∃ omitted, x = .ok (.ofRecords exportedAt
            ((memos.filter (l.complete request)).map (l.recordOf request)), omitted) ∧
          List.Forall₂ (l.Omits request) (memos.filter (!l.complete request ·)) omitted) ∧
        ∀ mended, l.MendedBy mended → ∀ m ∈ memos, l.complete request m = true →
          mended.complete request m = true ∧
            mended.recordOf request m = l.recordOf request m := by
  obtain ⟨t, calls, noted, needed⟩ := Lookups.buildSnapshot_steady answers exportedAt s
  refine ⟨_, t, calls, noted, needed, fun e => ?_, fun memos listed => ⟨?_, ?_⟩⟩
  · cases l.memos with
    | error e' => exact ⟨fun h => by cases h; rfl, fun h => by cases h; rfl⟩
    | ok memos => exact ⟨nofun, nofun⟩
  · obtain ⟨records, omitted⟩ := l.entries_eq request memos
    rw [listed, ← records]
    exact ⟨_, rfl, omitted⟩
  · exact fun mended mends m _ complete => mends.recordOf_eq complete

/-- A memo of the first user. -/
def jotted (id : MemoId) (uid : String) : Memo :=
  ⟨id, uid, 1, .normal, uid, .ownerOnly, false, .empty, 0, 0, none⟩

/-- Three memos, the first of which refers to the last one and to one that is gone; the relations of
the second one cannot be listed, and no attachments can. -/
def torn : Lookups where
  memos := .ok [jotted 1 "a", jotted 2 "b", jotted 3 "c"]
  memo id := .ok (if id = 3 then some (jotted 3 "c") else none)
  attachments _ := .error (.io "attachments failed")
  relations id :=
    if id = 1 then .ok [⟨1, 3, .reference⟩, ⟨1, 9, .reference⟩]
    else if id = 2 then .error (.io "relations failed") else .ok []

/-- The store with these answers, which counts the lookups. -/
def Lookups.counted (l : Lookups) : MemoStore (StateM Nat) where
  listMemos _ := .mk fun n => (l.memos, n + 1)
  getMemo q := .mk fun n => (l.memo (q.id.getD 0), n + 1)
  createMemo _ := .mk fun n => (.error .notWritable, n)
  updateMemo _ := .mk fun n => (.error .notWritable, n)
  listAttachments id := .mk fun n => (l.attachments id, n + 1)
  listRelations id := .mk fun n => (l.relations id, n + 1)
  contentLimit := .mk fun n => (.ok Store.defaultContentLimit, n + 1)

theorem buildSnapshot_omits_torn : ∃ t omitted,
    Ends (buildSnapshot torn.counted ⟨1, "alice"⟩ { includeRelations := true } .epoch) 0
        (.ok (.ofRecords .epoch [{ MemoRecord.ofMemo (jotted 1 "a") with
          relations := [⟨"c", "REFERENCE"⟩] }, .ofMemo (jotted 3 "c")], omitted)) t ∧
      omitted.map SkippedMemo.id = [2] := by
  have answers : torn.counted.Answers { includeRelations := true } (User.mk 1 "alice").id torn :=
    ⟨fun _ => rfl, fun _ _ _ => rfl, fun _ _ _ => rfl, fun _ _ _ => rfl⟩
  obtain ⟨x, t, calls, noted, -, -, brought⟩ := buildSnapshot_omits answers .epoch 0
  obtain ⟨⟨omitted, rfl, left⟩, -⟩ := brought _ rfl
  refine ⟨t, omitted, noted.plain, ?_⟩
  change List.Forall₂ _ [jotted 2 "b"] omitted at left
  cases left with
  | cons omits none =>
    cases none
    exact congrArg ([·]) omits.1

end MemoTransfer
