import MemoTransfer.Transfer.Import
import Mathlib.Algebra.GroupWithZero.Nat
import Mathlib.Data.List.Induction

/-!
# What a summary adds up

The summary of an import is the tally of its outcomes (`Summary.ofOutcomes_eq`): each counter counts
the outcomes of its kind, and the texts are theirs in order. So a response counts the verdicts on
the records by what was done with them, and its errors are the reasons of the rejections
(`ImportReport.response_eq`).
-/

namespace MemoTransfer

namespace Outcome

variable {α : Type}

/-- What an outcome that is no rejection reports, with its warnings. -/
def accepted? : Outcome α → Option (α × List String)
  | .success value => some (value, [])
  | .warning value messages => some (value, messages)
  | .reject _ => none

/-- Why an outcome is a rejection. -/
def reason? : Outcome α → Option String
  | .success _ => none
  | .warning _ _ => none
  | .reject reason => some reason

/-- Each outcome is accepted or rejected. -/
theorem length_accepted_add_length_reasons (outcomes : List (Outcome α)) :
    (outcomes.filterMap accepted?).length + (outcomes.filterMap reason?).length =
      outcomes.length := by
  induction outcomes with
  | nil => rfl
  | cons o outcomes ih =>
    cases o <;> simp only [List.filterMap_cons, accepted?, reason?, List.length_cons] <;> omega

end Outcome

/-! ## The tally -/

namespace Summary

variable {validateOnly : Bool} {outcomes : List (Outcome Imported)}

/-- The outcomes counted kind by kind. -/
def tally (validateOnly : Bool) (outcomes : List (Outcome Imported)) : Summary :=
  let accepted := outcomes.filterMap Outcome.accepted?
  let reasons := outcomes.filterMap Outcome.reason?
  { totalMemos := .ofNat outcomes.length
    importedCount := .ofNat accepted.length
    skippedCount := .ofNat reasons.length
    validationErrors := if validateOnly then .ofNat reasons.length else 0
    createdCount := .ofNat (accepted.countP (·.1.disposition = .created))
    updatedCount := .ofNat (accepted.countP (·.1.disposition = .updated))
    attachmentsImported := .ofNat (accepted.map (·.1.attachments.toNat)).sum
    relationsImported := .ofNat (accepted.map (·.1.relations.toNat)).sum
    errors := reasons
    warnings := accepted.flatMap (·.2) }

/-- One more outcome counts once. -/
theorem add_tally (validateOnly : Bool) (outcomes : List (Outcome Imported))
    (o : Outcome Imported) :
    add validateOnly (tally validateOnly outcomes) o = tally validateOnly (outcomes ++ [o]) := by
  cases o with
  | success r =>
    obtain ⟨disposition, attachments, relations⟩ := r
    cases disposition <;>
      simp [add, accept, tally, Outcome.accepted?, Outcome.reason?, List.filterMap_cons]
  | warning r messages =>
    obtain ⟨disposition, attachments, relations⟩ := r
    cases disposition <;>
      simp [add, accept, tally, Outcome.accepted?, Outcome.reason?, List.filterMap_cons]
  | reject reason =>
    cases validateOnly <;>
      simp [add, decline, tally, Outcome.accepted?, Outcome.reason?, List.filterMap_cons]

theorem foldl_add (validateOnly : Bool) (outcomes : List (Outcome Imported)) :
    outcomes.foldl (add validateOnly) {} = tally validateOnly outcomes := by
  induction outcomes using List.reverseRecOn with
  | nil => cases validateOnly <;> rfl
  | append_singleton outcomes o ih =>
    rw [List.foldl_append, ih, List.foldl_cons, List.foldl_nil, add_tally]

/-- **A summary is the tally of its outcomes.** -/
theorem ofOutcomes_eq (outcomes : List (Outcome Imported)) (validateOnly : Bool) (elapsed : Nat) :
    ofOutcomes outcomes validateOnly elapsed =
      { tally validateOnly outcomes with durationMs := milliseconds elapsed } := by
  rw [ofOutcomes, foldl_add]

end Summary

/-! ## Verdicts -/

namespace Verdict

/-- What was done with an accepted record. -/
def disposition? : Verdict → Option Disposition
  | .ok (imported, _) => some imported.disposition
  | .error _ => none

/-- Why a record was rejected. -/
def rejection? : Verdict → Option Rejection
  | .ok _ => none
  | .error rejection => some rejection

@[simp] theorem disposition?_ok (imported : Imported) (warnings : List String) :
    disposition? (.ok (imported, warnings)) = some imported.disposition := rfl

@[simp] theorem disposition?_error (rejection : Rejection) :
    disposition? (.error rejection) = none := rfl

@[simp] theorem rejection?_ok (x : Imported × List String) : rejection? (.ok x) = none := rfl

@[simp] theorem rejection?_error (rejection : Rejection) :
    rejection? (.error rejection) = some rejection := rfl

theorem accepted?_outcome (v : Verdict) : v.outcome.accepted? = v.toOption := by
  unfold outcome Outcome.withWarnings
  cases v with
  | error rejection => rfl
  | ok x =>
    obtain ⟨imported, messages⟩ := x
    cases messages <;> rfl

theorem reason?_outcome (v : Verdict) :
    v.outcome.reason? = v.rejection?.map Rejection.reason := by
  unfold outcome Outcome.withWarnings
  cases v with
  | error rejection => rfl
  | ok x =>
    obtain ⟨imported, messages⟩ := x
    cases messages <;> rfl

theorem filterMap_accepted? (verdicts : List Verdict) :
    (verdicts.map outcome).filterMap Outcome.accepted? = verdicts.filterMap Except.toOption := by
  rw [List.filterMap_map]
  congr 1
  funext v
  exact v.accepted?_outcome

theorem filterMap_reason? (verdicts : List Verdict) :
    (verdicts.map outcome).filterMap Outcome.reason? =
      (verdicts.filterMap rejection?).map Rejection.reason := by
  rw [List.filterMap_map, List.map_filterMap]
  congr 1
  funext v
  exact v.reason?_outcome

/-- The accepted records with a disposition. -/
theorem countP_accepted (verdicts : List Verdict) (d : Disposition) :
    (verdicts.filterMap Except.toOption).countP (·.1.disposition = d) =
      verdicts.countP (·.disposition? = some d) := by
  induction verdicts with
  | nil => rfl
  | cons v verdicts ih =>
    cases v with
    | error rejection => simp [List.filterMap_cons, Except.toOption, ih]
    | ok x => simp [Except.toOption, List.countP_cons, ih, disposition?]

end Verdict

namespace ImportReport

theorem rejections_eq (report : ImportReport) :
    report.rejections = report.verdicts.filterMap Verdict.rejection? := rfl

/-- **A response counts the verdicts on the records**, and its errors are the reasons of the
rejections in their order. -/
theorem response_eq (report : ImportReport) (elapsed : Nat) :
    let accepted := report.verdicts.filterMap Except.toOption
    let created := report.verdicts.countP (·.disposition? = some .created)
    let updated := report.verdicts.countP (·.disposition? = some .updated)
    report.response elapsed =
      { totalMemos := .ofNat report.verdicts.length
        importedCount := .ofNat accepted.length
        skippedCount := .ofNat report.rejections.length
        validationErrors := if report.validateOnly then .ofNat report.rejections.length else 0
        createdCount := .ofNat created
        updatedCount := .ofNat updated
        attachmentsImported := .ofNat (accepted.map (·.1.attachments.toNat)).sum
        relationsImported := .ofNat (accepted.map (·.1.relations.toNat)).sum
        errors := report.rejections.map Rejection.reason
        warnings := accepted.flatMap (·.2)
        durationMs := Summary.milliseconds elapsed } := by
  simp only [response, summary, Summary.ofOutcomes_eq, Summary.tally, ImportResponse.ofSummary,
    Verdict.filterMap_accepted?, Verdict.filterMap_reason?, ← rejections_eq, List.length_map,
    Verdict.countP_accepted]

/-- Each record is accepted or rejected. -/
theorem length_accepted_add_length_rejections (report : ImportReport) :
    (report.verdicts.filterMap Except.toOption).length + report.rejections.length =
      report.verdicts.length := by
  have divided := Outcome.length_accepted_add_length_reasons (report.verdicts.map Verdict.outcome)
  rwa [Verdict.filterMap_accepted?, Verdict.filterMap_reason?, List.length_map, List.length_map,
    ← rejections_eq] at divided

end ImportReport

end MemoTransfer
