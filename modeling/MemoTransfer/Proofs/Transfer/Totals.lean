import MemoTransfer.Proofs.Transfer.Summing

/-!
# Exact totals

The counters of a summary have 32 bits. If there are fewer outcomes than that, and no more
references than that in all of them, then nothing is cut off: not at the end, and not at any outcome
on the way (`Summary.ofOutcomes_exact`). So the counters are those of the outcomes themselves, they
agree with each other, and the summary of two lists, one behind the other, adds up those of each.
-/

namespace MemoTransfer

/-! ## Numbers of outcomes -/

namespace Outcome

/-- The outcome is a rejection. -/
def isReject {α : Type} : Outcome α → Bool
  | .reject _ => true
  | _ => false

/-- What one outcome adds to each counter. -/
def amounts (validateOnly : Bool) : Outcome Imported → List Nat
  | .success r | .warning r _ =>
    [1, 1, 0, 0, if r.disposition = .created then 1 else 0,
      if r.disposition = .updated then 1 else 0, r.attachments.toNat, r.relations.toNat]
  | .reject _ => [1, 0, 1, if validateOnly then 1 else 0, 0, 0, 0, 0]

end Outcome

namespace Summary

variable {validateOnly : Bool} {outcomes xs ys : List (Outcome Imported)}

/-- The number of accepted outcomes with a disposition. -/
def numberOf (d : Disposition) (outcomes : List (Outcome Imported)) : Nat :=
  (outcomes.filterMap Outcome.accepted?).countP (·.1.disposition = d)

/-- What all accepted outcomes have brought together. -/
def sumOf (brought : Imported → UInt32) (outcomes : List (Outcome Imported)) : Nat :=
  ((outcomes.filterMap Outcome.accepted?).map fun x => (brought x.1).toNat).sum

/-- The counters of a summary. -/
def counters (s : Summary) : List UInt32 :=
  [s.totalMemos, s.importedCount, s.skippedCount, s.validationErrors, s.createdCount,
    s.updatedCount, s.attachmentsImported, s.relationsImported]

/-- What the counters of the outcomes would be if they had no limit. -/
def totals (validateOnly : Bool) (outcomes : List (Outcome Imported)) : List Nat :=
  let rejected := (outcomes.filterMap Outcome.reason?).length
  [outcomes.length, (outcomes.filterMap Outcome.accepted?).length, rejected,
    if validateOnly then rejected else 0, numberOf .created outcomes, numberOf .updated outcomes,
    sumOf (·.attachments) outcomes, sumOf (·.relations) outcomes]

theorem numberOf_append (d : Disposition) (xs ys : List (Outcome Imported)) :
    numberOf d (xs ++ ys) = numberOf d xs + numberOf d ys := by
  rw [numberOf, List.filterMap_append, List.countP_append]
  rfl

theorem sumOf_append (brought : Imported → UInt32) (xs ys : List (Outcome Imported)) :
    sumOf brought (xs ++ ys) = sumOf brought xs + sumOf brought ys := by
  rw [sumOf, List.filterMap_append, List.map_append, List.sum_append]
  rfl

theorem totals_append (validateOnly : Bool) (xs ys : List (Outcome Imported)) :
    totals validateOnly (xs ++ ys) =
      List.zipWith (· + ·) (totals validateOnly xs) (totals validateOnly ys) := by
  cases validateOnly <;>
    simp [totals, numberOf_append, sumOf_append, List.filterMap_append]

theorem totals_singleton (validateOnly : Bool) (o : Outcome Imported) :
    totals validateOnly [o] = o.amounts validateOnly := by
  cases o <;>
    simp [totals, Outcome.amounts, numberOf, sumOf, Outcome.accepted?, Outcome.reason?,
      List.filterMap_cons, List.countP_cons]

/-- The rejections are the outcomes that have a reason. -/
theorem length_reasons (outcomes : List (Outcome Imported)) :
    (outcomes.filterMap Outcome.reason?).length = outcomes.countP Outcome.isReject := by
  induction outcomes with
  | nil => rfl
  | cons o outcomes ih =>
    cases o <;>
      simp [List.filterMap_cons, List.countP_cons, Outcome.reason?, Outcome.isReject, ih]

/-- Each accepted outcome has one of three dispositions. -/
theorem numberOf_add_numberOf (outcomes : List (Outcome Imported)) :
    numberOf .created outcomes + numberOf .updated outcomes + numberOf .validated outcomes =
      (outcomes.filterMap Outcome.accepted?).length := by
  unfold numberOf
  induction outcomes.filterMap Outcome.accepted? with
  | nil => rfl
  | cons x accepted ih =>
    obtain ⟨⟨disposition, _, _⟩, _⟩ := x
    cases disposition <;> simp only [List.countP_cons, List.length_cons] <;> simp <;> omega

/-! ## Counters that are wide enough -/

/-- The outcomes can be counted with 32 bits, and so can what they have brought. -/
structure Countable (outcomes : List (Outcome Imported)) : Prop where
  few : outcomes.length < 2 ^ 32
  attachments : sumOf (·.attachments) outcomes < 2 ^ 32
  relations : sumOf (·.relations) outcomes < 2 ^ 32

theorem Countable.left (h : Countable (xs ++ ys)) : Countable xs := by
  obtain ⟨few, attachments, relations⟩ := h
  rw [List.length_append] at few
  rw [sumOf_append] at attachments relations
  exact ⟨by omega, by omega, by omega⟩

theorem Countable.right (h : Countable (xs ++ ys)) : Countable ys := by
  obtain ⟨few, attachments, relations⟩ := h
  rw [List.length_append] at few
  rw [sumOf_append] at attachments relations
  exact ⟨by omega, by omega, by omega⟩

/-- No total exceeds 32 bits. -/
theorem Countable.totals_lt (h : Countable outcomes) :
    ∀ n ∈ totals validateOnly outcomes, n < 2 ^ 32 := by
  have few := h.few
  have divided := Outcome.length_accepted_add_length_reasons outcomes
  have kinds := numberOf_add_numberOf outcomes
  simp only [totals, List.forall_mem_cons]
  refine ⟨few, by omega, by omega, ?_, by omega, by omega, h.attachments, h.relations, by simp⟩
  split <;> omega

/-- The counters of a tally are the totals, cut off at 32 bits. -/
theorem counters_tally (validateOnly : Bool) (outcomes : List (Outcome Imported)) :
    (tally validateOnly outcomes).counters = (totals validateOnly outcomes).map UInt32.ofNat := by
  cases validateOnly <;> rfl

/-- The counters of outcomes that can be counted are the totals. -/
theorem Countable.counters (h : Countable outcomes) :
    (tally validateOnly outcomes).counters.map UInt32.toNat = totals validateOnly outcomes := by
  rw [counters_tally, List.map_map]
  refine (List.map_congr_left fun n hn => ?_).trans (List.map_id _)
  exact UInt32.toNat_ofNat_of_lt' (h.totals_lt n hn)

/-! ## What a summary says -/

/-- The summary counts the outcomes by kind, its counters agree with each other, and its texts are
theirs in order. -/
structure IsExact (validateOnly : Bool) (outcomes : List (Outcome Imported)) (s : Summary) :
    Prop where
  total : s.totalMemos.toNat = outcomes.length
  divided : s.totalMemos.toNat = s.importedCount.toNat + s.skippedCount.toNat
  skipped : s.skippedCount.toNat = outcomes.countP Outcome.isReject
  refused : s.skippedCount.toNat = s.errors.length
  errors : s.errors = outcomes.filterMap Outcome.reason?
  created : s.createdCount.toNat = numberOf .created outcomes
  updated : s.updatedCount.toNat = numberOf .updated outcomes
  imported : s.createdCount.toNat + s.updatedCount.toNat + numberOf .validated outcomes =
    s.importedCount.toNat
  invalid : s.validationErrors.toNat = if validateOnly then s.skippedCount.toNat else 0
  attachments : s.attachmentsImported.toNat = sumOf (·.attachments) outcomes
  relations : s.relationsImported.toNat = sumOf (·.relations) outcomes
  warnings : s.warnings = (outcomes.filterMap Outcome.accepted?).flatMap (·.2)

theorem Countable.isExact_tally (h : Countable outcomes) :
    (tally validateOnly outcomes).IsExact validateOnly outcomes := by
  have divided := Outcome.length_accepted_add_length_reasons outcomes
  have kinds := numberOf_add_numberOf outcomes
  have counters : (tally validateOnly outcomes).counters.map UInt32.toNat =
      totals validateOnly outcomes := h.counters
  simp only [Summary.counters, totals, List.map_cons, List.map_nil, List.cons.injEq] at counters
  obtain ⟨total, imported, skipped, invalid, created, updated, attachments, relations, -⟩ :=
    counters
  exact
    { total, created, updated, attachments, relations
      divided := by omega
      skipped := by rw [skipped, length_reasons]
      refused := skipped
      errors := rfl
      imported := by omega
      invalid := by rw [invalid, skipped]
      warnings := rfl }

/-- The summary with another duration. -/
def lasting (s : Summary) (durationMs : UInt64) : Summary :=
  { s with durationMs := durationMs }

/-- Both summaries as one: the counters add up, and the texts of the second one come behind those of
the first one. -/
def append (a b : Summary) : Summary where
  totalMemos := a.totalMemos + b.totalMemos
  importedCount := a.importedCount + b.importedCount
  skippedCount := a.skippedCount + b.skippedCount
  validationErrors := a.validationErrors + b.validationErrors
  createdCount := a.createdCount + b.createdCount
  updatedCount := a.updatedCount + b.updatedCount
  attachmentsImported := a.attachmentsImported + b.attachmentsImported
  relationsImported := a.relationsImported + b.relationsImported
  errors := a.errors ++ b.errors
  warnings := a.warnings ++ b.warnings
  durationMs := a.durationMs + b.durationMs

@[simp] theorem counters_lasting (s : Summary) (durationMs : UInt64) :
    (s.lasting durationMs).counters = s.counters := rfl

/-- What a summary says of the outcomes has nothing to do with the time. -/
theorem IsExact.lasting {s : Summary} (h : s.IsExact validateOnly outcomes) (durationMs : UInt64) :
    (s.lasting durationMs).IsExact validateOnly outcomes := by
  cases h
  constructor <;> assumption

theorem ofOutcomes_eq_lasting (outcomes : List (Outcome Imported)) (validateOnly : Bool)
    (elapsed : Nat) : ofOutcomes outcomes validateOnly elapsed =
      (tally validateOnly outcomes).lasting (milliseconds elapsed) :=
  ofOutcomes_eq outcomes validateOnly elapsed

theorem tally_append (validateOnly : Bool) (xs ys : List (Outcome Imported)) :
    tally validateOnly (xs ++ ys) = (tally validateOnly xs).append (tally validateOnly ys) := by
  cases validateOnly <;>
    simp [tally, append, List.filterMap_append, List.countP_append, UInt32.ofNat_add]

/-- **A summary is an exact fold.** If the outcomes can be counted, their summary counts them by
kind and keeps their texts in order; at each outcome, every counter grows by what that outcome adds
to it, and is never cut off; and wherever the outcomes are split, the summary adds up those of both
parts, but for the time. -/
theorem ofOutcomes_exact (h : Countable outcomes) (validateOnly : Bool) (elapsed : Nat) :
    (ofOutcomes outcomes validateOnly elapsed).IsExact validateOnly outcomes ∧
      (∀ before o after, outcomes = before ++ o :: after →
        let s := before.foldl (add validateOnly) {}
        (add validateOnly s o).counters.map UInt32.toNat =
          List.zipWith (· + ·) (s.counters.map UInt32.toNat) (o.amounts validateOnly)) ∧
      ∀ xs ys, outcomes = xs ++ ys → ∀ first second,
        let whole := ofOutcomes outcomes validateOnly elapsed
        let a := ofOutcomes xs validateOnly first
        let b := ofOutcomes ys validateOnly second
        whole = (a.append b).lasting (milliseconds elapsed) ∧
          whole.counters.map UInt32.toNat =
            List.zipWith (· + ·) (a.counters.map UInt32.toNat) (b.counters.map UInt32.toNat) := by
  refine ⟨?_, ?_, ?_⟩
  · rw [ofOutcomes_eq_lasting]
    exact h.isExact_tally.lasting _
  · intro before o after e s
    rw [List.append_cons] at e
    subst e
    have next : Countable (before ++ [o]) := h.left
    rw [show s = tally validateOnly before from foldl_add validateOnly before, add_tally,
      next.counters, next.left.counters, totals_append, totals_singleton]
  · intro xs ys e first second whole a b
    subst e
    simp only [whole, a, b, ofOutcomes_eq_lasting, counters_lasting]
    refine ⟨by rw [tally_append]; rfl, ?_⟩
    rw [h.counters, h.left.counters, h.right.counters, totals_append]

/-- Two rejected records between three accepted ones. -/
def mixed : List (Outcome Imported) :=
  [.success ⟨.created, 0, 0⟩, .reject "first", .warning ⟨.updated, 2, 1⟩ ["w1", "w2"],
    .reject "second", .warning ⟨.created, 0, 0⟩ ["w3"]]

theorem ofOutcomes_exact_mixed : Countable mixed ∧
    (ofOutcomes mixed false (10 ^ 9)).IsExact false mixed ∧
    (ofOutcomes mixed false (10 ^ 9)).counters.map UInt32.toNat = [5, 3, 2, 0, 2, 1, 2, 1] := by
  have h : Countable mixed := ⟨by decide, by decide, by decide⟩
  exact ⟨h, (ofOutcomes_exact h false (10 ^ 9)).1, by decide⟩

end Summary

end MemoTransfer
