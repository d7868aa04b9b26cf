import MemoTransfer.Snapshot.Basic

/-!
# Bringing in what a memo refers to

An import hands the attachments and the relations of a record to a reference importer, after the
memo has been written. The importer says how many it has brought in, or why none. `deferred` brings
in none.
-/

namespace MemoTransfer

/-- What has become of the attachments or the relations of a memo. -/
inductive ReferenceResult
  | imported (count : UInt32)
  /-- None was brought in; the message becomes a warning. -/
  | notImported (message : String)
  deriving DecidableEq, Repr

/-- Brings in the attachments and the relations of the memo with a text key, with the effects of
`m`. -/
structure ReferenceImporter (m : Type → Type) where
  importAttachments : String → List AttachmentRef → m ReferenceResult
  importRelations : String → List RelationRef → m ReferenceResult

/-- Brings nothing in and says so. -/
def ReferenceImporter.deferred {m : Type → Type} [Pure m] : ReferenceImporter m where
  importAttachments uid _ := pure (.notImported ("Attachments for memo " ++ uid ++
    " were skipped (attachment import not yet implemented)"))
  importRelations uid _ := pure (.notImported ("Relations for memo " ++ uid ++
    " were skipped (relation import not yet implemented)"))

end MemoTransfer
