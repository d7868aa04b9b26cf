import MemoTransfer.Query.Depth

/-!
# Queries within the limits

Every part of a query adds a level to its condition, above the levels that it has already. So a
query with fewer terms is no deeper (`MemoQuery.isTooDeep_mono`). One with a thousand terms is too
deep (`MemoQuery.isTooDeep_eq_true`), and one with up to nine hundred is not, whatever else it asks
for (`MemoQuery.isTooDeep_eq_false`).
-/

namespace MemoTransfer

open MemoTransfer.Query

/-- The levels of parts that are joined to a condition. -/
def levels (whole : Nat) (parts : List Nat) : Nat :=
  parts.foldl (fun whole part => 1 + max whole part) whole

theorem levels_cons (whole part : Nat) (parts : List Nat) :
    levels whole (part :: parts) = levels (1 + max whole part) parts := rfl

/-- Fewer parts, joined to a condition of fewer levels, have fewer levels. -/
theorem levels_mono {whole whole' : Nat} {parts parts' : List Nat} (h : whole ≤ whole')
    (sub : parts.Sublist parts') : levels whole parts ≤ levels whole' parts' := by
  induction sub generalizing whole whole' with
  | slnil => exact h
  | cons part _ ih => exact ih (show whole ≤ 1 + max whole' part by omega)
  | cons_cons part _ ih => exact ih (show 1 + max whole part ≤ 1 + max whole' part by omega)

/-- Parts of few levels add one level each. -/
theorem levels_le {whole bound : Nat} {parts : List Nat} (h : whole ≤ bound)
    (few : ∀ part ∈ parts, part ≤ bound) : levels whole parts ≤ bound + parts.length := by
  induction parts generalizing whole bound with
  | nil => exact h
  | cons part parts ih =>
    rw [List.forall_mem_cons] at few
    have start : 1 + max whole part ≤ bound + 1 := by omega
    have step := ih start fun p hp => Nat.le_succ_of_le (few.2 p hp)
    rw [levels_cons, List.length_cons]
    omega

/-- Every part adds a level. -/
theorem add_length_le_levels (whole : Nat) (parts : List Nat) :
    whole + parts.length ≤ levels whole parts := by
  induction parts generalizing whole with
  | nil => exact Nat.le_refl whole
  | cons part parts ih =>
    have step := ih (1 + max whole part)
    rw [levels_cons, List.length_cons]
    omega

theorem Query.Term.depth_le (t : Term) : t.depth ≤ 6 := by
  unfold depth
  split <;> decide

namespace MemoQuery

variable {q : MemoQuery} {terms terms' : List Term}

theorem depth_eq (q : MemoQuery) (terms : List Term) :
    q.depth terms = levels 2 (q.partDepths [] ++ terms.map Term.depth) := by
  rw [depth, partDepths, partDepths, List.map_nil, List.append_nil]
  rfl

/-- A query asks for at most five things besides its filter. -/
theorem partDepths_nil_le (q : MemoQuery) :
    (∀ part ∈ q.partDepths [], part ≤ 6) ∧ (q.partDepths []).length ≤ 5 := by
  obtain ⟨id, uid, creatorId, rowStatus, filter, excludeComments⟩ := q
  cases id <;> cases uid <;> cases creatorId <;> cases rowStatus <;> cases excludeComments <;>
    simp [partDepths]

/-- **A query with fewer terms is no deeper.** -/
theorem isTooDeep_mono (sub : terms.Sublist terms') (deep : q.isTooDeep terms = true) :
    q.isTooDeep terms' = true := by
  have whole : q.depth terms ≤ q.depth terms' := by
    rw [depth_eq, depth_eq]
    exact levels_mono (Nat.le_refl 2) ((sub.map Term.depth).append_left _)
  have further : q.furtherDepth terms ≤ q.furtherDepth terms' := by
    have tags : terms.countP Term.isTag ≤ terms'.countP Term.isTag := sub.countP_le
    have tables {n n' : Nat} (h : n ≤ n') : (if n = 0 then 0 else max 3 (min tagTables n)) ≤
        if n' = 0 then 0 else max 3 (min tagTables n') := by
      split <;> split <;> omega
    have := tables tags
    simp only [furtherDepth]
    omega
  rw [isTooDeep, decide_eq_true_eq] at deep ⊢
  omega

/-- **A query with a thousand terms is too deep.** -/
theorem isTooDeep_eq_true (many : 1000 ≤ terms.length) : q.isTooDeep terms = true := by
  have whole := add_length_le_levels 2 (q.partDepths [] ++ terms.map Term.depth)
  rw [← depth_eq, List.length_append, List.length_map] at whole
  rw [isTooDeep, decide_eq_true_eq, depthLimit]
  omega

/-- **A query with some hundred terms is not too deep.** -/
theorem isTooDeep_eq_false (few : terms.length ≤ 900) : q.isTooDeep terms = false := by
  obtain ⟨low, count⟩ := q.partDepths_nil_le
  have parts : ∀ part ∈ q.partDepths [] ++ terms.map Term.depth, part ≤ 6 := by
    refine List.forall_mem_append.2 ⟨low, fun part hp => ?_⟩
    obtain ⟨t, -, rfl⟩ := List.mem_map.1 hp
    exact t.depth_le
  have whole : q.depth terms ≤ 6 + (5 + terms.length) := by
    have bound : levels 2 _ ≤ _ := levels_le (by decide) parts
    rw [List.length_append, List.length_map] at bound
    rw [depth_eq]
    omega
  have further : q.furtherDepth terms ≤ 63 := by
    simp only [furtherDepth, tagTables]
    split <;> split <;> omega
  rw [isTooDeep, decide_eq_false_iff_not, depthLimit]
  omega

end MemoQuery

end MemoTransfer
