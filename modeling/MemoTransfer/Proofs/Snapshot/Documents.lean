import MemoTransfer.Proofs.Calendar.ReadBack
import MemoTransfer.Proofs.Memo.ReadBack
import MemoTransfer.Snapshot.Written

/-!
# Documents of a snapshot

The JSON documents that hold a snapshot: its written form, but with the members of every object in
any order, among members with other names, under their second names, without those that are equal
to their default, with `null` for what is absent, and with any white space (`Snapshot.IsDocument`).
Each of them is read as the snapshot, if its coordinates are finite (`Snapshot.run_of_isDocument`),
and the encoded snapshot is one of them (`Snapshot.isDocument_encode`).
-/

namespace MemoTransfer

open MemoTransfer.Json MemoTransfer.Calendar MemoTransfer.Utf8

variable {layout : Layout}

/-! ## Members that may be left out -/

theorem memberIfSome_eq {α : Type} (name : String) (toJson : α → Value) (o : Option α) :
    memberIfSome name toJson o = (o.map fun v => (name, toJson v)).toList := by
  cases o <;> rfl

/-- A list that is written unless it is empty. -/
theorem Json.Fills.ifAny (hl : layout.Valid) {α : Type} {fields : List Field} {slots : List Slot}
    {es : List Entry} {P : α → Bytes → Prop} {toJson : α → Value} {items : List α} {f : Field}
    {name : String} {depth : Nat} (names : name ∈ f.names)
    (value : ∀ v ∈ items, P v (bytes ((toJson v).chars layout (depth + 1))))
    (further : Fills fields slots es) :
    Fills fields (⟨f, IsListOf P items, items = []⟩ :: slots)
      ((memberIfAny name toJson items).map (Entry.written hl depth) ++ es) := by
  cases items with
  | nil => exact further.skip rfl
  | cons v vs => exact .written hl names (isListOf_chars hl value) further

/-! ## Parts of a record -/

namespace AttachmentRef

/-- The members of an attachment. -/
def slots (a : AttachmentRef) : List Slot :=
  [⟨.needed "uid", SpellsText a.uid, False⟩,
   ⟨.needed "filename", SpellsText a.filename, False⟩,
   ⟨.needed "type", SpellsText a.mimeType, False⟩,
   ⟨.needed "size", IsWritten (.integer a.size.toInt), False⟩]

/-- The draft that holds the given members of an attachment. -/
def filled (a : AttachmentRef) (given : String → Bool) : Draft where
  uid := ifGiven (given "uid") a.uid
  filename := ifGiven (given "filename") a.filename
  mimeType := ifGiven (given "type") a.mimeType
  size := ifGiven (given "size") a.size

theorem gives {a : AttachmentRef} {bs : Bytes} (h : IsForm a.slots bs) :
    Gives record.reader bs a := by
  refine IsForm.gives a.filled (by decide) ?_ rfl (fun given filled => ?_) h
  · exact .cons (.of (fun _ => rfl) (fun _ => rfl) fun _ h => h.text)
      (.cons (.of (fun _ => rfl) (fun _ => rfl) fun _ h => h.text)
        (.cons (.of (fun _ => rfl) (fun _ => rfl) fun _ h => h.text)
          (.cons (.of (fun _ => rfl) (fun _ => rfl) fun _ h => h.gives (.int64 _)) .nil)))
  · simp only [slots, Field.needed, List.forall_mem_cons] at filled
    obtain ⟨uid, filename, mimeType, size, -⟩ := filled
    simp only [record, AttachmentRef.filled, needed_ifGiven uid, needed_ifGiven filename,
      needed_ifGiven mimeType, needed_ifGiven size]
    rfl

theorem isForm_chars (hl : layout.Valid) (a : AttachmentRef) (depth : Nat) :
    IsForm a.slots (bytes (a.toJson.chars layout depth)) :=
  .written hl
    (.written hl List.mem_cons_self (spellsText_chars _)
      (.written hl List.mem_cons_self (spellsText_chars _)
        (.written hl List.mem_cons_self (spellsText_chars _)
          (.written hl List.mem_cons_self (isWritten_integer _ _ _) .done))))

end AttachmentRef

namespace RelationRef

/-- The members of a relation. -/
def slots (r : RelationRef) : List Slot :=
  [⟨(Field.needed "related_uid").orNamed "related_memo_uid", SpellsText r.relatedUid, False⟩,
   ⟨.needed "type", SpellsText r.kind, False⟩]

/-- The draft that holds the given members of a relation. -/
def filled (r : RelationRef) (given : String → Bool) : Draft where
  relatedUid := ifGiven (given "related_uid") r.relatedUid
  kind := ifGiven (given "type") r.kind

theorem gives {r : RelationRef} {bs : Bytes} (h : IsForm r.slots bs) :
    Gives record.reader bs r := by
  refine IsForm.gives r.filled (by decide) ?_ rfl (fun given filled => ?_) h
  · refine .cons (Steps.orNamed (.of (fun _ => rfl) (fun _ => rfl) fun _ h => h.text) _)
      (.cons (.of (fun _ => rfl) (fun _ => rfl) fun _ h => h.text) .nil)
  · simp only [slots, Field.needed, Field.orNamed, List.forall_mem_cons] at filled
    obtain ⟨relatedUid, kind, -⟩ := filled
    simp only [record, RelationRef.filled, needed_ifGiven relatedUid, needed_ifGiven kind]
    rfl

theorem isForm_chars (hl : layout.Valid) (r : RelationRef) (depth : Nat) :
    IsForm r.slots (bytes (r.toJson.chars layout depth)) :=
  .written hl
    (.written hl List.mem_cons_self (spellsText_chars _)
      (.written hl List.mem_cons_self (spellsText_chars _) .done))

end RelationRef

/-! ## Records -/

namespace MemoRecord

/-- The location of a record, if it has one, is finite. -/
def IsFinite (m : MemoRecord) : Prop := ∀ l ∈ m.location, l.IsFinite

instance (m : MemoRecord) : Decidable m.IsFinite := inferInstanceAs (Decidable (∀ l ∈ _, _))

/-- The members of a record. -/
def slots (m : MemoRecord) : List Slot :=
  [⟨.needed "uid", SpellsText m.uid, False⟩,
   ⟨.needed "content", SpellsText m.content, False⟩,
   ⟨.spare "visibility", SpellsText m.visibility, m.visibility = ""⟩,
   ⟨.spare "pinned", IsWritten (.boolean m.pinned), m.pinned = false⟩,
   ⟨.needed "created_at", SpellsText m.createdAt.text, False⟩,
   ⟨.needed "updated_at", SpellsText m.updatedAt.text, False⟩,
   ⟨.spare "display_time", IsOptional (fun t => SpellsText t.text) m.displayTime,
    m.displayTime = none⟩,
   ⟨.spare "tags", IsListOf SpellsText m.tags, m.tags = []⟩,
   ⟨.spare "location", IsOptional (fun l => IsForm l.slots) m.location, m.location = none⟩,
   ⟨.spare "attachments", IsListOf (fun a => IsForm a.slots) m.attachments, m.attachments = []⟩,
   ⟨.spare "relations", IsListOf (fun r => IsForm r.slots) m.relations, m.relations = []⟩]

/-- The draft that holds the given members of a record. -/
def filled (m : MemoRecord) (given : String → Bool) : Draft where
  uid := ifGiven (given "uid") m.uid
  content := ifGiven (given "content") m.content
  visibility := ifGiven (given "visibility") m.visibility
  pinned := ifGiven (given "pinned") m.pinned
  createdAt := ifGiven (given "created_at") m.createdAt
  updatedAt := ifGiven (given "updated_at") m.updatedAt
  displayTime := ifGiven (given "display_time") m.displayTime
  tags := ifGiven (given "tags") m.tags
  location := ifGiven (given "location") m.location
  attachments := ifGiven (given "attachments") m.attachments
  relations := ifGiven (given "relations") m.relations

theorem gives {m : MemoRecord} (hm : m.IsFinite) {bs : Bytes} (h : IsForm m.slots bs) :
    Gives record.reader bs m := by
  have instant {t : Instant} {text : Bytes} (h : SpellsText t.text text) :
      Gives Instant.reader text t := h.parsed (by rw [t.read_text]; rfl)
  refine IsForm.gives m.filled (by decide) ?_ rfl (fun given filled => ?_) h
  · refine .cons (.of (fun _ => rfl) (fun _ => rfl) fun _ h => h.text) ?_
    refine .cons (.of (fun _ => rfl) (fun _ => rfl) fun _ h => h.text) ?_
    refine .cons (.of (fun _ => rfl) (fun _ => rfl) fun _ h => h.text) ?_
    refine .cons (.of (fun _ => rfl) (fun _ => rfl) fun _ h => h.gives (.boolean _ _ _)) ?_
    refine .cons (.of (fun _ => rfl) (fun _ => rfl) fun _ h => instant h) ?_
    refine .cons (.of (fun _ => rfl) (fun _ => rfl) fun _ h => instant h) ?_
    refine .cons (.of (fun _ => rfl) (fun _ => rfl) fun _ h =>
      h.gives fun _ _ _ h => h.optional (instant h)) ?_
    refine .cons (.of (fun _ => rfl) (fun _ => rfl) fun _ h =>
      h.gives fun _ _ _ h => h.text) ?_
    refine .cons (.of (fun _ => rfl) (fun _ => rfl) fun _ h =>
      h.gives fun l hl _ h => h.optional (Location.gives (hm l hl) h)) ?_
    refine .cons (.of (fun _ => rfl) (fun _ => rfl) fun _ h =>
      h.gives fun _ _ _ h => AttachmentRef.gives h) ?_
    refine .cons (.of (fun _ => rfl) (fun _ => rfl) fun _ h =>
      h.gives fun _ _ _ h => RelationRef.gives h) .nil
  · simp only [slots, Field.needed, Field.spare, List.forall_mem_cons] at filled
    obtain ⟨uid, content, visibility, pinned, createdAt, updatedAt, displayTime, tags, location,
      attachments, relations, -⟩ := filled
    simp only [record, MemoRecord.filled, needed_ifGiven uid, needed_ifGiven content,
      needed_ifGiven createdAt, needed_ifGiven updatedAt, getD_ifGiven visibility,
      getD_ifGiven pinned, getD_ifGiven displayTime, getD_ifGiven tags, getD_ifGiven location,
      getD_ifGiven attachments, getD_ifGiven relations]
    rfl

theorem isForm_chars (hl : layout.Valid) (m : MemoRecord) (depth : Nat) :
    IsForm m.slots (bytes (m.toJson.chars layout depth)) := by
  refine .written hl ?_
  rw [← List.append_nil (memberIfAny "relations" _ _), memberIfSome_eq, memberIfSome_eq]
  simp only [List.append_assoc, List.map_append]
  refine .written hl List.mem_cons_self (spellsText_chars _) ?_
  refine .written hl List.mem_cons_self (spellsText_chars _) ?_
  refine .written hl List.mem_cons_self (spellsText_chars _) ?_
  refine .written hl List.mem_cons_self (isWritten_boolean _ _ _) ?_
  refine .written hl List.mem_cons_self (spellsText_chars _) ?_
  refine .written hl List.mem_cons_self (spellsText_chars _) ?_
  refine .ifSome hl List.mem_cons_self (fun t _ => spellsText_chars t.text) ?_
  refine .ifAny hl List.mem_cons_self (fun s _ => spellsText_chars s) ?_
  refine .ifSome hl List.mem_cons_self (fun l _ => l.isForm_chars hl _) ?_
  refine .ifAny hl List.mem_cons_self (fun a _ => a.isForm_chars hl _) ?_
  exact .ifAny hl List.mem_cons_self (fun r _ => r.isForm_chars hl _) .done

end MemoRecord

/-! ## Snapshots -/

namespace Snapshot

/-- All coordinates of its records are finite. -/
def IsFinite (s : Snapshot) : Prop := ∀ m ∈ s.records, m.IsFinite

instance (s : Snapshot) : Decidable s.IsFinite := inferInstanceAs (Decidable (∀ m ∈ _, _))

/-- The members of a snapshot. -/
def slots (s : Snapshot) : List Slot :=
  [⟨.needed "version", SpellsText s.version, False⟩,
   ⟨.needed "exported_at", SpellsText s.exportedAt.text, False⟩,
   ⟨(Field.spare "records").orNamed "memos", IsListOf (fun m => IsForm m.slots) s.records,
    s.records = []⟩]

/-- The bytes are a document that holds the snapshot, perhaps with white space around it. -/
def IsDocument (s : Snapshot) (bs : Bytes) : Prop :=
  ∃ before text after, AllSpace before ∧ AllSpace after ∧ IsForm s.slots text ∧
    bs = before ++ (text ++ after)

/-- The draft that holds the given members of a snapshot. -/
def filled (s : Snapshot) (given : String → Bool) : Draft where
  version := ifGiven (given "version") s.version
  exportedAt := ifGiven (given "exported_at") s.exportedAt
  records := ifGiven (given "records") s.records

theorem gives {s : Snapshot} (hs : s.IsFinite) {bs : Bytes} (h : IsForm s.slots bs) :
    Gives record.reader bs s := by
  refine IsForm.gives s.filled (by decide) ?_ rfl (fun given filled => ?_) h
  · refine .cons (.of (fun _ => rfl) (fun _ => rfl) fun _ h => h.text) ?_
    refine .cons (.of (fun _ => rfl) (fun _ => rfl) fun _ h =>
      h.parsed (by rw [s.exportedAt.read_text]; rfl)) ?_
    refine .cons (Steps.orNamed (.of (fun _ => rfl) (fun _ => rfl) fun _ h =>
      h.gives fun m hm _ h => MemoRecord.gives (hs m hm) h) _) .nil
  · simp only [slots, Field.needed, Field.spare, Field.orNamed, List.forall_mem_cons] at filled
    obtain ⟨version, exportedAt, records, -⟩ := filled
    simp only [record, Snapshot.filled, needed_ifGiven version, needed_ifGiven exportedAt,
      getD_ifGiven records]
    rfl

/-- **Whatever document holds a snapshot is read as it.** -/
theorem run_of_isDocument {s : Snapshot} (hs : s.IsFinite) {bs : Bytes} (h : s.IsDocument bs) :
    Reader.run record.reader bs = .ok s := by
  obtain ⟨before, text, after, hb, ha, form, rfl⟩ := h
  exact (gives hs form).run_eq hb ha

theorem isForm_chars (hl : layout.Valid) (s : Snapshot) (depth : Nat) :
    IsForm s.slots (bytes (s.toJson.chars layout depth)) :=
  .written hl
    (.written hl List.mem_cons_self (spellsText_chars _)
      (.written hl List.mem_cons_self (spellsText_chars _)
        (.written hl List.mem_cons_self
          (isListOf_chars hl fun m _ => m.isForm_chars hl _) .done)))

/-- **The encoded snapshot is a document that holds it.** -/
theorem isDocument_encode (s : Snapshot) : s.IsDocument s.encode := by
  refine ⟨[], _, [], allSpace_nil, allSpace_nil, isForm_chars Layout.pretty_valid s 0, ?_⟩
  rw [encode, Value.pretty, Utf8.encode_ofList, List.append_nil, List.nil_append]

end Snapshot

end MemoTransfer
