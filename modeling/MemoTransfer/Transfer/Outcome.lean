import MemoTransfer.Json.Printer

/-!
# Outcomes and their summary

Each record of an import has an outcome of its own. The summary of an import adds the outcomes up in
the order of the records: its counters count them, its errors are the reasons of the rejected ones
and its warnings those of the accepted ones.
-/

namespace MemoTransfer

open MemoTransfer.Json

/-- What became of one unit of work. -/
inductive Outcome (α : Type)
  | success (value : α)
  /-- It succeeded with a loss. -/
  | warning (value : α) (messages : List String)
  | reject (reason : String)
  deriving DecidableEq, Repr

/-- A success, or a warning if there is anything to warn of. -/
def Outcome.withWarnings {α : Type} (value : α) (messages : List String) : Outcome α :=
  if messages.isEmpty then .success value else .warning value messages

/-- What was done with an imported memo. -/
inductive Disposition
  | created
  | updated
  /-- Nothing was written: it would have been. -/
  | validated
  deriving DecidableEq, Repr

/-- What an accepted record has led to. -/
structure Imported where
  disposition : Disposition
  attachments : UInt32
  relations : UInt32
  deriving DecidableEq, Repr

/-- The sum of the outcomes of an import. -/
structure Summary where
  totalMemos : UInt32 := 0
  importedCount : UInt32 := 0
  skippedCount : UInt32 := 0
  validationErrors : UInt32 := 0
  createdCount : UInt32 := 0
  updatedCount : UInt32 := 0
  attachmentsImported : UInt32 := 0
  relationsImported : UInt32 := 0
  errors : List String := []
  warnings : List String := []
  durationMs : UInt64 := 0
  deriving DecidableEq, Repr

namespace Summary

/-- Counts an accepted record. -/
def accept (s : Summary) (r : Imported) (messages : List String) : Summary :=
  { s with
    importedCount := s.importedCount + 1
    createdCount := if r.disposition = .created then s.createdCount + 1 else s.createdCount
    updatedCount := if r.disposition = .updated then s.updatedCount + 1 else s.updatedCount
    attachmentsImported := s.attachmentsImported + r.attachments
    relationsImported := s.relationsImported + r.relations
    warnings := s.warnings ++ messages }

/-- Counts a rejected record, in a dry run as a validation error too. -/
def decline (s : Summary) (validateOnly : Bool) (reason : String) : Summary :=
  { s with
    skippedCount := s.skippedCount + 1
    validationErrors := if validateOnly then s.validationErrors + 1 else s.validationErrors
    errors := s.errors ++ [reason] }

/-- Counts one outcome. -/
def add (validateOnly : Bool) (s : Summary) (o : Outcome Imported) : Summary :=
  let s := { s with totalMemos := s.totalMemos + 1 }
  match o with
  | .success r => s.accept r []
  | .warning r messages => s.accept r messages
  | .reject reason => s.decline validateOnly reason

/-- Whole milliseconds of a time in nanoseconds, at most as many as 64 bits can hold. -/
def milliseconds (elapsed : Nat) : UInt64 := UInt64.ofNat (min (elapsed / 10 ^ 6) (2 ^ 64 - 1))

/-- The summary of an import that took so many nanoseconds. -/
def ofOutcomes (outcomes : List (Outcome Imported)) (validateOnly : Bool) (elapsed : Nat) :
    Summary :=
  { outcomes.foldl (add validateOnly) {} with durationMs := milliseconds elapsed }

/-- The written form of a summary. -/
def toJson (s : Summary) : Value :=
  .object [("total_memos", .integer s.totalMemos.toNat),
    ("imported_count", .integer s.importedCount.toNat),
    ("skipped_count", .integer s.skippedCount.toNat),
    ("validation_errors", .integer s.validationErrors.toNat),
    ("created_count", .integer s.createdCount.toNat),
    ("updated_count", .integer s.updatedCount.toNat),
    ("attachments_imported", .integer s.attachmentsImported.toNat),
    ("relations_imported", .integer s.relationsImported.toNat),
    ("errors", .texts s.errors), ("warnings", .texts s.warnings),
    ("duration_ms", .integer s.durationMs.toNat)]

end Summary

end MemoTransfer
