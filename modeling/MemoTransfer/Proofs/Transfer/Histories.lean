import MemoTransfer.Proofs.Store.Integrity
import Mathlib.Logic.Relation

/-!
# Histories of a store

Each operation of an account changes one table after another (`Store.perform_leads`): most of them
change one or none, and an import changes the table of memos once for each record that it writes. So
whatever is kept by every change of a table is kept by every history of operations, whether they
succeed or fail. The tables of a store are consistent at any time, and its numbers are lasting
(`Store.run_keeps_integrity`).
-/

namespace MemoTransfer

open MemoTransfer.Calendar

namespace Store

/-! ## Operations of accounts as changes of tables -/

/-- Changes of tables lead from one store to another. -/
def Leads : Store → Store → Prop := Relation.ReflTransGen Alters

variable {s t : Store}

theorem Alters.leads (h : s.Alters t) : s.Leads t := .single h

theorem Leads.consistent (hs : s.Consistent) (h : s.Leads t) : t.Consistent := by
  induction h with
  | refl => exact hs
  | tail _ step ih => exact step.consistent ih

theorem Leads.precedes (h : s.Leads t) : s.Precedes t := by
  induction h with
  | refl => exact .refl s
  | tail _ step ih => exact ih.trans step.precedes

theorem merged_alters (s : Store) (owner : UserId) (options : ImportOptions) (now : Int)
    (r : MemoRecord) : s.Alters (s.merged owner options now r) := by
  have step := s.reconciled owner options now r
  generalize s.verdict owner options r = v, s.merged owner options now r = t at step ⊢
  cases step with
  | refused _ => exact .unchanged
  | validated _ _ => exact .unchanged
  | updated _ _ _ => exact .patched _
  | created _ _ free known => exact .memo free known
  | unowned _ _ _ _ => exact .unchanged

theorem mergedAll_leads (s : Store) (owner : UserId) (options : ImportOptions) (now : Int)
    (records : List MemoRecord) : s.Leads (s.mergedAll owner options now records) := by
  induction records generalizing s with
  | nil => exact .refl
  | cons r records ih => exact .head (s.merged_alters owner options now r) (ih _)

theorem Performed.leads {op : AccountOperation} (h : s.Performed op t) : s.Leads t := by
  cases h with
  | unchanged _ => exact .refl
  | enrolled free => exact (Alters.user free).leads
  | written _ _ free known => exact (Alters.memo free known).leads
  | archived id => exact (Alters.patched _).leads
  | removed id => exact (Alters.removed id).leads
  | limited limit => exact (Alters.setting _ _).leads
  | imported owner _ => exact s.mergedAll_leads owner _ _ _

/-- **An operation of an account changes one table after another.** -/
theorem perform_leads (hs : s.WellFormed) (op : AccountOperation) : s.Leads (op.perform s) :=
  (performed hs op).leads

end Store

/-! ## Histories -/

/-- An operation of an account or of a table. -/
inductive Operation
  | account (op : AccountOperation)
  | table (op : TableOperation)

/-- The store after the operation. -/
def Operation.perform (s : Store) : Operation → Store
  | account op => op.perform s
  | table op => op.perform s

/-- What a change of a table gives, if it does not fail. -/
def TableOperation.attempt (s : Store) : TableOperation → Except Error Store
  | createUser username => (s.createUser username).map Prod.snd
  | createMemo memo => (s.createMemo memo).map Prod.snd
  | updateMemo patch => s.updateMemo patch
  | deleteMemo id => .ok (s.deleteMemo id)
  | createAttachment uid memoId filename mimeType size =>
    (s.createAttachment uid memoId filename mimeType size).map Prod.snd
  | createRelation relation => .ok (s.createRelation relation)
  | setSetting name value => .ok (s.setSetting name value)

theorem TableOperation.perform_eq (s : Store) (op : TableOperation) :
    op.perform s = s.after (op.attempt s) := by
  cases op <;> rfl

namespace Store

/-- The store after operations. -/
def afterAll (s : Store) (ops : List Operation) : Store := ops.foldl Operation.perform s

/-- The store that operations make out of the empty one. -/
def run (ops : List Operation) : Store := Store.empty.afterAll ops

theorem run_append (before after : List Operation) :
    run (before ++ after) = (run before).afterAll after :=
  List.foldl_append

theorem afterAll_leads {s : Store} (hs : s.Consistent) (ops : List Operation) :
    s.Leads (s.afterAll ops) := by
  induction ops generalizing s with
  | nil => exact .refl
  | cons op ops ih =>
    have first : s.Leads (op.perform s) := by
      cases op with
      | account op => exact perform_leads hs.wellFormed op
      | table op => exact (s.perform_alters op).leads
    exact first.trans (ih (first.consistent hs))

theorem run_consistent (ops : List Operation) : (run ops).Consistent :=
  (afterAll_leads .empty ops).consistent .empty

/-- A memo that was put in is found under its number. -/
theorem getMemo_of_createMemo {s t : Store} (hs : s.Consistent) {m m' : Memo}
    (h : s.createMemo m = .ok (m', t)) : t.getMemo (.byId m'.id) = .ok (some m') := by
  obtain ⟨free, known, rfl, rfl⟩ := of_createMemo h
  have last : MemoRow.ofMemo (s.lastMemo + 1) m ∈ (s.withRow m).memos :=
    List.mem_append_right _ List.mem_cons_self
  exact getMemo_byId (hs.withRow free known).wellFormed last

/-- **A store keeps its integrity.** After any operations, whether they have succeeded or failed,
its tables are consistent; what follows gives no number again; a change of a table that fails leaves
all tables as they were; and a memo that was put in is found under its number. -/
theorem run_keeps_integrity (before between later : List Operation) :
    (run before).Consistent ∧
      Lasting (run before).userKeys (run (before ++ between)).userKeys
        (run (before ++ between ++ later)).userKeys ∧
      Lasting (run before).memoKeys (run (before ++ between)).memoKeys
        (run (before ++ between ++ later)).memoKeys ∧
      Lasting (run before).attachmentKeys (run (before ++ between)).attachmentKeys
        (run (before ++ between ++ later)).attachmentKeys ∧
      (∀ (op : TableOperation) (e : Error), op.attempt (run before) = .error e →
        run (before ++ [.table op]) = run before) ∧
      ∀ (m m' : Memo) (t : Store), (run before).createMemo m = .ok (m', t) →
        t.getMemo (.byId m'.id) = .ok (some m') := by
  have first := run_consistent before
  have second := run_consistent (before ++ between)
  have growth := (afterAll_leads first between).precedes
  have growth' := (afterAll_leads second later).precedes
  rw [← run_append] at growth growth'
  refine ⟨first, .of_grows first.users growth.users growth'.users,
    .of_grows first.memos growth.memos growth'.memos,
    .of_grows first.attachments growth.attachments growth'.attachments, ?_,
    fun m m' t => getMemo_of_createMemo first⟩
  intro op e failed
  have kept : op.perform (run before) = run before := by
    rw [op.perform_eq, failed, after]
  rw [run_append]
  exact kept

/-- A memo of the first user. -/
def draft : Memo := ⟨0, "a", 1, .normal, "one", .ownerOnly, false, .empty, 0, 0, none⟩

/-- The memo is put in. -/
def drafted : List Operation := [.table (.createUser "alice"), .table (.createMemo draft)]

/-- The number of the memo is gone with it, even if the same memo is put in again. -/
theorem run_keeps_integrity_deleted :
    (1, "a") ∈ (run drafted).memoKeys ∧
      ∀ x ∈ (run (drafted ++ [.table (.deleteMemo 1)] ++ [.table (.createMemo draft)])).memoKeys,
        x.1 ≠ 1 := by
  obtain ⟨-, -, lasting, -⟩ :=
    run_keeps_integrity drafted [.table (.deleteMemo 1)] [.table (.createMemo draft)]
  have given : (1, "a") ∈ (run drafted).memoKeys := List.mem_singleton.2 rfl
  have deleted : (run (drafted ++ [.table (.deleteMemo 1)])).memoKeys = [] := by rfl
  refine ⟨given, lasting.gone (1, "a") given ?_⟩
  rw [deleted]
  simp

end Store

end MemoTransfer
