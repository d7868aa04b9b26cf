import Mathlib.Data.List.Forall2
import MemoTransfer.Proofs.Store.Lookups

/-!
# Removing a memo

A memo is removed in three steps: its relations go, its attachments are let go, and its row goes
last, when nothing refers to it any more (`Store.removeRow_eq`). Then no trace of its number is
left, and everything else is as it was (`Store.removes_deleteMemo`). What is looked up of another
memo is the same as before, but for the relations between the two.
-/

namespace MemoTransfer.Store

variable {s : Store} {id other : MemoId}

/-! ## Step by step -/

/-- The store without the relations from a memo and to it. -/
def unrelated (s : Store) (id : MemoId) : Store :=
  { s with relations := s.relations.filter fun r => r.memoId ≠ id && r.relatedId ≠ id }

/-- The store in which the attachments of a memo belong to none. -/
def detached (s : Store) (id : MemoId) : Store :=
  { s with
    attachments := s.attachments.map fun a =>
      if a.memoId = some id then { a with memoId := none } else a }

/-- Takes out the row of a memo, which is refused while an attachment refers to it. -/
def removeRow (s : Store) (id : MemoId) : Except Error Store :=
  if s.hasMemo id && s.attachments.any (·.memoId = some id) then .error .noReferent
  else .ok { s with memos := s.memos.filter (·.id ≠ id) }

theorem memoId_ne_of_mem_detached {a : Attachment} (h : a ∈ (s.detached id).attachments) :
    a.memoId ≠ some id := by
  obtain ⟨b, -, rfl⟩ := List.mem_map.1 h
  split
  · exact nofun
  · assumption

/-- **A memo is removed step by step**, and no step is refused. -/
theorem removeRow_eq (s : Store) (id : MemoId) :
    ((s.unrelated id).detached id).removeRow id = .ok (s.deleteMemo id) := by
  have free : ((s.unrelated id).detached id).attachments.any (·.memoId = some id) = false := by
    rw [List.any_eq_false]
    exact fun a ha => by simpa using memoId_ne_of_mem_detached ha
  rw [removeRow, free, Bool.and_false]
  rfl

/-! ## What is left -/

/-- The later store is the earlier one without a memo. -/
structure Removes (s : Store) (id : MemoId) (t : Store) : Prop where
  absent : ∀ r ∈ t.memos, r.id ≠ id
  unnamed : ∀ r ∈ t.relations, r.memoId ≠ id ∧ r.relatedId ≠ id
  /-- Its attachments belong to no memo; they and all others are otherwise as they were. -/
  attachments : List.Forall₂
    (fun a b => if a.memoId = some id then b = { a with memoId := none } else b = a)
    s.attachments t.attachments
  /-- All other memos are as they were, in the same order. -/
  memos : t.memos = s.memos.filter (·.id ≠ id)
  relations : t.relations = s.relations.filter fun r => r.memoId ≠ id ∧ r.relatedId ≠ id
  /-- Nothing else has changed. -/
  rest : { t with
    memos := s.memos
    relations := s.relations
    attachments := s.attachments } = s

/-- **What removing a memo leaves.** -/
theorem removes_deleteMemo (s : Store) (id : MemoId) : s.Removes id (s.deleteMemo id) where
  absent r hr := of_decide_eq_true (List.mem_filter.1 hr).2
  unnamed r hr := by simpa using (List.mem_filter.1 hr).2
  attachments := by
    refine List.forall₂_map_right_iff.2 (List.forall₂_same.2 fun a _ => ?_)
    split <;> rfl
  memos := rfl
  relations := by simp [deleteMemo]
  rest := rfl

/-! ## Other memos -/

theorem mem_memos_deleteMemo {r : MemoRow} :
    r ∈ (s.deleteMemo id).memos ↔ r ∈ s.memos ∧ r.id ≠ id := by
  simp [deleteMemo]

/-- The other memo is found as before. -/
theorem find?_deleteMemo (apart : other ≠ id) :
    (s.deleteMemo id).memos.find? (·.id = other) = s.memos.find? (·.id = other) := by
  rw [deleteMemo, List.find?_filter]
  congr 1
  funext r
  by_cases h : r.id = other
  · simp [h, apart]
  · simp [h]

theorem attachmentsOf_deleteMemo (apart : other ≠ id) :
    (s.deleteMemo id).attachmentsOf other = s.attachmentsOf other := by
  have stays : ∀ a ∈ s.attachments.filter (·.memoId = some other),
      (if a.memoId = some id then { a with memoId := none } else a) = a := by
    intro a ha
    have : a.memoId = some other := of_decide_eq_true (List.mem_filter.1 ha).2
    rw [if_neg (by simpa [this] using apart)]
  rw [attachmentsOf, attachmentsOf, deleteMemo, List.filter_map]
  refine Eq.trans (congrArg _ (List.filter_congr fun a _ => ?_))
    ((List.map_congr_left stays).trans (List.map_id' _))
  by_cases h : a.memoId = some id
  · simp [h, Ne.symm apart]
  · simp [h]

theorem relationsOf_deleteMemo (apart : other ≠ id) :
    (s.deleteMemo id).relationsOf other = (s.relationsOf other).filter (·.relatedId ≠ id) := by
  rw [relationsOf, relationsOf, deleteMemo, List.filter_filter, List.filter_filter]
  refine List.filter_congr fun r _ => ?_
  by_cases h : r.memoId = other
  · simp [h, apart]
  · simp [h]

/-- A memo is no comment any more if it was none but on the memo that is gone. -/
theorem isComment_deleteMemo_eq_false_iff (apart : other ≠ id) :
    (s.deleteMemo id).isComment other = false ↔
      ∀ r ∈ s.relations, r.memoId = other → r.kind = .comment → r.relatedId = id := by
  rw [isComment, relationsOf_deleteMemo apart, relationsOf]
  simp only [List.any_filter, List.any_eq_false, Bool.and_eq_true, decide_eq_true_eq, not_and]
  exact forall₂_congr fun r _ => ⟨fun h starts comment => by_contra fun stays =>
    h starts stays comment, fun h starts stays comment => stays (h starts comment)⟩

theorem isComment_of_deleteMemo (h : (s.deleteMemo id).isComment other = true) :
    s.isComment other = true := by
  obtain ⟨r, hr, comment⟩ := List.any_eq_true.1 h
  obtain ⟨kept, starts⟩ := List.mem_filter.1 hr
  exact List.any_eq_true.2 ⟨r, List.mem_filter.2 ⟨List.mem_of_mem_filter kept, starts⟩, comment⟩

end MemoTransfer.Store
