import MemoTransfer.Store.Change
import MemoTransfer.Store.Select

/-!
# What an export and an import need of a store

`MemoStore m` are the operations through which memos are exported and imported, in a monad `m` that
carries out their effects; each of them may fail. A `Store` provides them as changes of itself
(`Store.memoStore`).
-/

namespace MemoTransfer

/-- The operations on memos, with the effects of `m`. -/
structure MemoStore (m : Type → Type) where
  /-- The memos that match a query. -/
  listMemos : MemoQuery → ExceptT Error m (List Memo)
  /-- The first memo that matches a query. -/
  getMemo : MemoQuery → ExceptT Error m (Option Memo)
  /-- Puts a memo in, whose number is ignored, and gives it back with its own. -/
  createMemo : Memo → ExceptT Error m Memo
  /-- Changes parts of a memo. -/
  updateMemo : MemoPatch → ExceptT Error m Unit
  /-- The attachments of a memo. -/
  listAttachments : MemoId → ExceptT Error m (List Attachment)
  /-- The relations that start at a memo. -/
  listRelations : MemoId → ExceptT Error m (List Relation)
  /-- The greatest length of a content in bytes. -/
  contentLimit : ExceptT Error m Nat

/-- The same operations, of which those that write fail. -/
def MemoStore.readOnly {m : Type → Type} [Monad m] (store : MemoStore m) : MemoStore m :=
  { store with
    createMemo := fun _ => throw .notWritable
    updateMemo := fun p => if p.isEmpty then pure () else throw .notWritable }

namespace Store

/-- Asks the store for something. -/
def ask {α : Type} (f : Store → Except Error α) : ExceptT Error (StateM Store) α :=
  fun s => (f s, s)

/-- Changes the store, which stays as it was if the change fails. -/
def change {α : Type} (f : Store → Except Error (α × Store)) : ExceptT Error (StateM Store) α :=
  fun s =>
    match f s with
    | .ok (a, s') => (.ok a, s')
    | .error e => (.error e, s)

/-- The operations of a store. -/
def memoStore : MemoStore (StateM Store) where
  listMemos q := ask (·.listMemos q)
  getMemo q := ask (·.getMemo q)
  createMemo m := change (·.createMemo m)
  updateMemo p := change fun s => (s.updateMemo p).map fun s' => ((), s')
  listAttachments id := ask fun s => .ok (s.attachmentsOf id)
  listRelations id := ask fun s => .ok (s.relationsOf id)
  contentLimit := ask Store.contentLimit

end Store

end MemoTransfer
