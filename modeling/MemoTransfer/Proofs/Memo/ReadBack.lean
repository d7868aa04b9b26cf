import MemoTransfer.Memo.Written
import MemoTransfer.Proofs.Json.Fields

/-!
# Reading back a payload

The members that an object with a location, with derived properties or with a payload may have
(`slots`). Each such object is read as the value, if its coordinates are finite, and the written
form is one of them, in every layout. Hence a stored payload is the one that was stored
(`Payload.read_write`).
-/

namespace MemoTransfer

open MemoTransfer.Json MemoTransfer.Number MemoTransfer.Utf8

variable {layout : Layout}

namespace Location

/-- Both coordinates are finite. -/
def IsFinite (l : Location) : Prop :=
  l.latitude.isFinite = true ∧ l.longitude.isFinite = true

instance (l : Location) : Decidable l.IsFinite := inferInstanceAs (Decidable (_ ∧ _))

/-- The members of a location. -/
def slots (l : Location) : List Slot :=
  [⟨.spare "placeholder", SpellsText l.placeholder, l.placeholder = ""⟩,
   ⟨.spare "latitude", IsWritten (.floating l.latitude), l.latitude = .zero⟩,
   ⟨.spare "longitude", IsWritten (.floating l.longitude), l.longitude = .zero⟩]

/-- The draft that holds the given members of a location. -/
def filled (l : Location) (given : String → Bool) : Draft where
  placeholder := ifGiven (given "placeholder") l.placeholder
  latitude := ifGiven (given "latitude") l.latitude
  longitude := ifGiven (given "longitude") l.longitude

theorem gives {l : Location} (hl : l.IsFinite) {bs : Bytes} (h : IsForm l.slots bs) :
    Gives record.reader bs l := by
  refine IsForm.gives l.filled (by decide) ?_ rfl (fun given filled => ?_) h
  · exact .cons (.of (fun _ => rfl) (fun _ => rfl) fun _ h => h.text)
      (.cons (.of (fun _ => rfl) (fun _ => rfl) fun _ h => h.gives (.floating hl.1))
        (.cons (.of (fun _ => rfl) (fun _ => rfl) fun _ h => h.gives (.floating hl.2)) .nil))
  · simp only [slots, Field.spare, List.forall_mem_cons] at filled
    obtain ⟨placeholder, latitude, longitude, -⟩ := filled
    simp only [record, Location.filled, getD_ifGiven placeholder, getD_ifGiven latitude,
      getD_ifGiven longitude]

theorem isForm_chars (hl : layout.Valid) (l : Location) (depth : Nat) :
    IsForm l.slots (bytes (l.toJson.chars layout depth)) :=
  .written hl
    (.written hl List.mem_cons_self (spellsText_chars _)
      (.written hl List.mem_cons_self (isWritten_floating _ _ _)
        (.written hl List.mem_cons_self (isWritten_floating _ _ _) .done)))

end Location

namespace Property

/-- The members of derived properties. -/
def slots (p : Property) : List Slot :=
  [⟨.spare "has_link", IsWritten (.boolean p.hasLink), p.hasLink = false⟩,
   ⟨.spare "has_task_list", IsWritten (.boolean p.hasTaskList), p.hasTaskList = false⟩,
   ⟨.spare "has_code", IsWritten (.boolean p.hasCode), p.hasCode = false⟩,
   ⟨.spare "has_incomplete_tasks", IsWritten (.boolean p.hasIncompleteTasks),
    p.hasIncompleteTasks = false⟩]

/-- The draft that holds the given members of derived properties. -/
def filled (p : Property) (given : String → Bool) : Draft where
  hasLink := ifGiven (given "has_link") p.hasLink
  hasTaskList := ifGiven (given "has_task_list") p.hasTaskList
  hasCode := ifGiven (given "has_code") p.hasCode
  hasIncompleteTasks := ifGiven (given "has_incomplete_tasks") p.hasIncompleteTasks

theorem gives {p : Property} {bs : Bytes} (h : IsForm p.slots bs) :
    Gives record.reader bs p := by
  refine IsForm.gives p.filled (by decide) ?_ rfl (fun given filled => ?_) h
  · exact .cons (.of (fun _ => rfl) (fun _ => rfl) fun _ h => h.gives (.boolean _ _ _))
      (.cons (.of (fun _ => rfl) (fun _ => rfl) fun _ h => h.gives (.boolean _ _ _))
        (.cons (.of (fun _ => rfl) (fun _ => rfl) fun _ h => h.gives (.boolean _ _ _))
          (.cons (.of (fun _ => rfl) (fun _ => rfl) fun _ h => h.gives (.boolean _ _ _)) .nil)))
  · simp only [slots, Field.spare, List.forall_mem_cons] at filled
    obtain ⟨hasLink, hasTaskList, hasCode, hasIncompleteTasks, -⟩ := filled
    simp only [record, Property.filled, getD_ifGiven hasLink, getD_ifGiven hasTaskList,
      getD_ifGiven hasCode, getD_ifGiven hasIncompleteTasks]

theorem isForm_chars (hl : layout.Valid) (p : Property) (depth : Nat) :
    IsForm p.slots (bytes (p.toJson.chars layout depth)) :=
  .written hl
    (.written hl List.mem_cons_self (isWritten_boolean _ _ _)
      (.written hl List.mem_cons_self (isWritten_boolean _ _ _)
        (.written hl List.mem_cons_self (isWritten_boolean _ _ _)
          (.written hl List.mem_cons_self (isWritten_boolean _ _ _) .done))))

end Property

namespace Payload

/-- The location of a payload, if it has one, is finite. -/
def IsFinite (p : Payload) : Prop := ∀ l ∈ p.location, l.IsFinite

instance (p : Payload) : Decidable p.IsFinite := inferInstanceAs (Decidable (∀ l ∈ _, _))

/-- The members of a payload. -/
def slots (p : Payload) : List Slot :=
  [⟨.spare "tags", IsListOf SpellsText p.tags, p.tags = []⟩,
   ⟨.spare "property", IsForm p.property.slots, p.property = .plain⟩,
   ⟨.spare "location", IsOptional (fun l => IsForm l.slots) p.location, p.location = none⟩]

/-- The draft that holds the given members of a payload. -/
def filled (p : Payload) (given : String → Bool) : Draft where
  tags := ifGiven (given "tags") p.tags
  property := ifGiven (given "property") p.property
  location := ifGiven (given "location") p.location

theorem gives {p : Payload} (hp : p.IsFinite) {bs : Bytes} (h : IsForm p.slots bs) :
    Gives record.reader bs p := by
  refine IsForm.gives p.filled (by decide) ?_ rfl (fun given filled => ?_) h
  · exact .cons (.of (fun _ => rfl) (fun _ => rfl) fun _ h => h.gives fun _ _ _ h => h.text)
      (.cons (.of (fun _ => rfl) (fun _ => rfl) fun _ h => Property.gives h)
        (.cons (.of (fun _ => rfl) (fun _ => rfl) fun _ h =>
          h.gives fun l hl _ h => h.optional (Location.gives (hp l hl) h)) .nil))
  · simp only [slots, Field.spare, List.forall_mem_cons] at filled
    obtain ⟨tags, property, location, -⟩ := filled
    simp only [record, Payload.filled, getD_ifGiven tags, getD_ifGiven property,
      getD_ifGiven location]

theorem isForm_chars (hl : layout.Valid) (p : Payload) (depth : Nat) :
    IsForm p.slots (bytes (p.toJson.chars layout depth)) := by
  refine .written hl ?_
  rw [List.map_append, ← List.append_nil (List.map _ (Option.toList _))]
  refine .written hl List.mem_cons_self (isListOf_chars hl fun s _ => spellsText_chars s) ?_
  refine .written hl List.mem_cons_self (p.property.isForm_chars hl _) ?_
  exact .ifSome hl List.mem_cons_self (fun l _ => l.isForm_chars hl _) .done

/-- **A stored payload with finite coordinates is read back.** -/
theorem read_write {p : Payload} (h : p.IsFinite) : Payload.read p.write = p := by
  have run : Reader.run record.reader (Utf8.encode p.write) = .ok p := by
    have whole := (gives h (p.isForm_chars Layout.compact_valid 0)).run_bytes
    rwa [← Utf8.encode_ofList] at whole
  rw [Payload.read, run]

end Payload

end MemoTransfer
