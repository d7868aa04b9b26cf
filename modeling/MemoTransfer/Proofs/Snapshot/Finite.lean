import MemoTransfer.Proofs.Json.Ensures
import MemoTransfer.Proofs.Snapshot.RoundTrip

/-!
# What is read is finite

No JSON text holds an infinite coordinate, so that the coordinates of whatever snapshot is decoded
are finite (`Snapshot.isFinite_of_decode`), and those of a payload that is read from a store as well
(`Payload.isFinite_read`).
-/

namespace MemoTransfer

open MemoTransfer.Json MemoTransfer.Number

namespace Location

/-- The coordinates found so far are finite. -/
def Draft.IsFinite (d : Draft) : Prop :=
  (∀ x ∈ d.latitude, x.isFinite = true) ∧ ∀ x ∈ d.longitude, x.isFinite = true

theorem ensures_isFinite : Ensures record.reader IsFinite := by
  have blank : record.blank.IsFinite :=
    ⟨fun x h => absurd h (Option.not_mem_none x), fun x h => absurd h (Option.not_mem_none x)⟩
  refine Record.ensures blank ?_ ?_
  · intro m hm d hd
    simp only [record, List.mem_cons, List.not_mem_nil, or_false] at hm
    rcases hm with rfl | rfl | rfl
    · exact Member.of_ensures_any fun v => hd
    · refine Member.of_ensures Reader.floating_ensures fun v hv => ⟨fun x hx => ?_, hd.2⟩
      cases hx
      exact hv
    · refine Member.of_ensures Reader.floating_ensures fun v hv => ⟨hd.1, fun x hx => ?_⟩
      cases hx
      exact hv
  · intro d v hd hv
    cases hv
    -- a coordinate that is left out is zero
    have given : ∀ o : Option Binary64, (∀ x ∈ o, x.isFinite = true) →
        (o.getD .zero).isFinite = true := by
      intro o ho
      cases o with
      | none => decide
      | some x => exact ho x rfl
    exact ⟨given _ hd.1, given _ hd.2⟩

end Location

namespace Payload

theorem ensures_isFinite : Ensures record.reader IsFinite := by
  refine Record.ensures (I := fun d => ∀ o ∈ d.location, ∀ l ∈ o, l.IsFinite)
    (fun o h => absurd h (Option.not_mem_none o)) ?_ ?_
  · intro m hm d hd
    simp only [record, List.mem_cons, List.not_mem_nil, or_false] at hm
    rcases hm with rfl | rfl | rfl
    · exact Member.of_ensures_any fun v => hd
    · exact Member.of_ensures_any fun v => hd
    · have location := Reader.optional_ensures Location.ensures_isFinite
      refine Member.of_ensures location fun v hv o ho => ?_
      cases ho
      exact hv
  · intro d p hd hp
    cases hp
    intro l hl
    cases hlocation : d.location with
    | none => simp [hlocation] at hl
    | some o =>
      rw [hlocation] at hl
      exact hd o hlocation l hl

/-- The location of a payload that is read from a store is finite. -/
theorem isFinite_read (s : String) : (Payload.read s).IsFinite := by
  unfold Payload.read
  split
  · rename_i p h
    exact Reader.run_ensures ensures_isFinite h
  · intro l hl
    cases hl

end Payload

namespace MemoRecord

theorem ensures_isFinite : Ensures record.reader IsFinite := by
  refine Record.ensures (I := fun d => ∀ o ∈ d.location, ∀ l ∈ o, l.IsFinite)
    (fun o h => absurd h (Option.not_mem_none o)) ?_ ?_
  · intro m hm d hd
    simp only [record, List.mem_cons, List.not_mem_nil, or_false] at hm
    rcases hm with rfl | rfl | rfl | rfl | rfl | rfl | rfl | rfl | rfl | rfl | rfl
    -- only the location matters
    all_goals try exact Member.of_ensures_any fun v => hd
    refine Member.of_ensures (Reader.optional_ensures Location.ensures_isFinite) fun v hv o ho => ?_
    cases ho
    exact hv
  · intro d m hd hm l hl
    have location : m.location = d.location.getD none := by
      obtain ⟨uid, content, _, _, createdAt, updatedAt⟩ := d
      cases uid <;> cases content <;> cases createdAt <;> cases updatedAt <;> cases hm
      rfl
    cases hlocation : d.location with
    | none => simp [location, hlocation] at hl
    | some o =>
      rw [location, hlocation] at hl
      exact hd o hlocation l hl

end MemoRecord

namespace Snapshot

theorem ensures_isFinite : Ensures record.reader IsFinite := by
  refine Record.ensures (I := fun d => ∀ rs ∈ d.records, ∀ m ∈ rs, m.IsFinite)
    (fun o h => absurd h (Option.not_mem_none o)) ?_ ?_
  · intro m hm d hd
    simp only [record, List.mem_cons, List.not_mem_nil, or_false] at hm
    rcases hm with rfl | rfl | rfl
    · exact Member.of_ensures_any fun v => hd
    · exact Member.of_ensures_any fun v => hd
    · refine (Reader.list_ensures MemoRecord.ensures_isFinite).bind fun v hv => .pure fun o ho => ?_
      cases ho
      exact hv
  · intro d s hd hs m hm
    have records : s.records = d.records.getD [] := by
      obtain ⟨version, exportedAt, _⟩ := d
      cases version <;> cases exportedAt <;> cases hs
      rfl
    cases hrecords : d.records with
    | none => simp [records, hrecords] at hm
    | some rs =>
      rw [records, hrecords] at hm
      exact hd rs hrecords m hm

/-- **The coordinates of a decoded snapshot are finite.** -/
theorem isFinite_of_decode {bs : Bytes} {s : Snapshot} (h : decode bs = .ok s) : s.IsFinite :=
  Reader.run_ensures ensures_isFinite (run_of_decode h)

end Snapshot

end MemoTransfer
