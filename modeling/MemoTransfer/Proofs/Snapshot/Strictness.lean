import MemoTransfer.Proofs.Json.Flaws
import MemoTransfer.Proofs.Snapshot.RoundTrip

/-!
# Flawed snapshots

A JSON text is flawed as a snapshot if one of its objects repeats a field, under whichever of its
names, or misses one that is required (`Snapshot.IsFlawed`): the snapshot itself, a record, or a
location, an attachment or a relation of a record. A document is flawed as soon as another member
is added for a field that comes, or the member of a required field is left out, in any of its
objects (`Snapshot.IsSpoiled.isFlawed`). A flawed text is never decoded, wherever the flaw is and
whatever stands around it (`Snapshot.decode_of_isFlawed`).
-/

namespace MemoTransfer

open MemoTransfer.Json MemoTransfer.Calendar MemoTransfer.Utf8

/-! ## Flaws -/

namespace Location

/-- The fields of a location. -/
def fields : List Field := [.spare "placeholder", .spare "latitude", .spare "longitude"]

/-- The text is that of a location with a field that comes twice. -/
def IsFlawed : Bytes → Prop := Json.IsFlawed fields fun _ _ => False

end Location

namespace AttachmentRef

/-- The fields of an attachment. -/
def fields : List Field := [.needed "uid", .needed "filename", .needed "type", .needed "size"]

/-- The text is that of an attachment with a field that comes twice or not at all. -/
def IsFlawed : Bytes → Prop := Json.IsFlawed fields fun _ _ => False

end AttachmentRef

namespace RelationRef

/-- The fields of a relation. -/
def fields : List Field :=
  [(Field.needed "related_uid").orNamed "related_memo_uid", .needed "type"]

/-- The text is that of a relation with a field that comes twice or not at all. -/
def IsFlawed : Bytes → Prop := Json.IsFlawed fields fun _ _ => False

end RelationRef

namespace MemoRecord

/-- The fields of a record. -/
def fields : List Field :=
  [.needed "uid", .needed "content", .spare "visibility", .spare "pinned", .needed "created_at",
    .needed "updated_at", .spare "display_time", .spare "tags", .spare "location",
    .spare "attachments", .spare "relations"]

/-- The value of the field is a flawed location, or a list with a flawed attachment or relation. -/
def HasFlaw (field : String) (text : Bytes) : Prop :=
  match field with
  | "location" => Location.IsFlawed text
  | "attachments" => HasItem AttachmentRef.IsFlawed text
  | "relations" => HasItem RelationRef.IsFlawed text
  | _ => False

/-- The text is that of a record with a flaw in one of its objects. -/
def IsFlawed : Bytes → Prop := Json.IsFlawed fields HasFlaw

end MemoRecord

namespace Snapshot

/-- The fields of a snapshot. -/
def fields : List Field :=
  [.needed "version", .needed "exported_at", (Field.spare "records").orNamed "memos"]

/-- The value of the field is a list with a flawed record. -/
def HasFlaw (field : String) (text : Bytes) : Prop :=
  match field with
  | "records" => HasItem MemoRecord.IsFlawed text
  | _ => False

/-- The bytes are a JSON text, perhaps with white space around it, in which an object has a field
twice or misses one that is required: the snapshot itself, or an object in it under names that it
has. What else is in the text does not matter. -/
def IsFlawed (bs : Bytes) : Prop :=
  ∃ before text after, AllSpace before ∧ AllSpace after ∧ Json.IsFlawed fields HasFlaw text ∧
    bs = before ++ (text ++ after)

end Snapshot

/-! ## Strict records -/

theorem Json.isSome_of_needed {α : Type} {name : String} {o : Option α} {v : α}
    (h : needed name o = .ok v) : o.isSome = true := by
  cases o with
  | none => cases h
  | some w => rfl

theorem Location.strict : record.IsStrict fun _ _ => False where
  distinct := by decide
  exact m hm := by
    simp only [record, List.mem_cons, List.not_mem_nil, or_false] at hm
    rcases hm with rfl | rfl | rfl
    · exact fun _ => IsExact.text.map
    · exact fun _ => IsExact.floating.map
    · exact fun _ => IsExact.floating.map
  blank := by decide
  tracks m hm d := by
    simp only [record, List.mem_cons, List.not_mem_nil, or_false] at hm
    rcases hm with rfl | rfl | rfl
    all_goals
      refine Member.of_ensures_any fun v m' hm' => ?_
      simp only [record, List.mem_cons, List.not_mem_nil, or_false] at hm'
      rcases hm' with rfl | rfl | rfl <;> rfl
  required m hm := by
    simp only [record, List.mem_cons, List.not_mem_nil, or_false] at hm
    rcases hm with rfl | rfl | rfl <;> exact fun h => absurd h Bool.false_ne_true
  within _ _ _ h := h.elim

theorem AttachmentRef.strict : record.IsStrict fun _ _ => False where
  distinct := by decide
  exact m hm := by
    simp only [record, List.mem_cons, List.not_mem_nil, or_false] at hm
    rcases hm with rfl | rfl | rfl | rfl
    · exact fun _ => IsExact.text.map
    · exact fun _ => IsExact.text.map
    · exact fun _ => IsExact.text.map
    · exact fun _ => IsExact.int64.map
  blank := by decide
  tracks m hm d := by
    simp only [record, List.mem_cons, List.not_mem_nil, or_false] at hm
    rcases hm with rfl | rfl | rfl | rfl
    all_goals
      refine Member.of_ensures_any fun v m' hm' => ?_
      simp only [record, List.mem_cons, List.not_mem_nil, or_false] at hm'
      rcases hm' with rfl | rfl | rfl | rfl <;> rfl
  required m hm _ d v build := by
    obtain ⟨_, uid, build⟩ := exists_ok_of_bind build
    obtain ⟨_, filename, build⟩ := exists_ok_of_bind build
    obtain ⟨_, mimeType, build⟩ := exists_ok_of_bind build
    obtain ⟨_, size, -⟩ := exists_ok_of_bind build
    simp only [record, List.mem_cons, List.not_mem_nil, or_false] at hm
    rcases hm with rfl | rfl | rfl | rfl
    · exact isSome_of_needed uid
    · exact isSome_of_needed filename
    · exact isSome_of_needed mimeType
    · exact isSome_of_needed size
  within _ _ _ h := h.elim

theorem RelationRef.strict : record.IsStrict fun _ _ => False where
  distinct := by decide
  exact m hm := by
    simp only [record, List.mem_cons, List.not_mem_nil, or_false] at hm
    rcases hm with rfl | rfl
    · exact fun _ => IsExact.text.map
    · exact fun _ => IsExact.text.map
  blank := by decide
  tracks m hm d := by
    simp only [record, List.mem_cons, List.not_mem_nil, or_false] at hm
    rcases hm with rfl | rfl
    all_goals
      refine Ensures.after fun v => .pure fun m' hm' => ?_
      simp only [record, List.mem_cons, List.not_mem_nil, or_false] at hm'
      rcases hm' with rfl | rfl <;> rfl
  required m hm _ d v build := by
    obtain ⟨_, relatedUid, build⟩ := exists_ok_of_bind build
    obtain ⟨_, kind, -⟩ := exists_ok_of_bind build
    simp only [record, List.mem_cons, List.not_mem_nil, or_false] at hm
    rcases hm with rfl | rfl
    · exact isSome_of_needed relatedUid
    · exact isSome_of_needed kind
  within _ _ _ h := h.elim

namespace MemoRecord

theorem exact_of_mem : ∀ m ∈ record.members, ∀ d, IsExact (m.read d) := by
  intro m hm
  simp only [record, List.mem_cons, List.not_mem_nil, or_false] at hm
  rcases hm with rfl | rfl | rfl | rfl | rfl | rfl | rfl | rfl | rfl | rfl | rfl
  · exact fun _ => IsExact.text.map
  · exact fun _ => IsExact.text.map
  · exact fun _ => IsExact.text.map
  · exact fun _ => IsExact.boolean.map
  · exact fun _ => IsExact.parsed.map
  · exact fun _ => IsExact.parsed.map
  · exact fun _ => IsExact.parsed.optional.map
  · exact fun _ => IsExact.text.list.map
  · exact fun _ => (IsExact.record Location.strict.exact).optional.map
  · exact fun _ => (IsExact.record AttachmentRef.strict.exact).list.map
  · exact fun _ => (IsExact.record RelationRef.strict.exact).list.map

theorem not_accepts_of_hasFlaw {m : Member Draft} (hm : m ∈ record.members) {text : Bytes}
    (h : HasFlaw m.name text) (d d' : Draft) : ¬Accepts (m.read d) text d' := by
  intro accepted
  simp only [record, List.mem_cons, List.not_mem_nil, or_false] at hm
  rcases hm with rfl | rfl | rfl | rfl | rfl | rfl | rfl | rfl | rfl | rfl | rfl
  case inr.inr.inr.inr.inr.inr.inr.inr.inl =>
    have flaw : Location.IsFlawed text := h
    obtain ⟨es, ho, -⟩ := flaw.exists_isObject
    obtain ⟨o, read⟩ := accepted.of_map
    obtain ⟨l, read⟩ := read.of_optional ho
    exact Location.strict.not_accepts flaw read
  case inr.inr.inr.inr.inr.inr.inr.inr.inr.inl =>
    obtain ⟨as, read⟩ := accepted.of_map
    exact Accepts.not_hasItem (.record AttachmentRef.strict.exact)
      (fun _ _ flaw => AttachmentRef.strict.not_accepts flaw) h read
  case inr.inr.inr.inr.inr.inr.inr.inr.inr.inr =>
    obtain ⟨rs, read⟩ := accepted.of_map
    exact Accepts.not_hasItem (.record RelationRef.strict.exact)
      (fun _ _ flaw => RelationRef.strict.not_accepts flaw) h read
  -- the other members have no parts
  all_goals exact h

theorem strict : record.IsStrict HasFlaw where
  distinct := by decide
  exact := exact_of_mem
  blank := by decide
  tracks m hm d := by
    simp only [record, List.mem_cons, List.not_mem_nil, or_false] at hm
    rcases hm with rfl | rfl | rfl | rfl | rfl | rfl | rfl | rfl | rfl | rfl | rfl
    all_goals
      refine Member.of_ensures_any fun v m' hm' => ?_
      simp only [record, List.mem_cons, List.not_mem_nil, or_false] at hm'
      rcases hm' with rfl | rfl | rfl | rfl | rfl | rfl | rfl | rfl | rfl | rfl | rfl <;> rfl
  required m hm required d v build := by
    obtain ⟨_, uid, build⟩ := exists_ok_of_bind build
    obtain ⟨_, content, build⟩ := exists_ok_of_bind build
    obtain ⟨_, createdAt, build⟩ := exists_ok_of_bind build
    obtain ⟨_, updatedAt, -⟩ := exists_ok_of_bind build
    simp only [record, List.mem_cons, List.not_mem_nil, or_false] at hm
    rcases hm with rfl | rfl | rfl | rfl | rfl | rfl | rfl | rfl | rfl | rfl | rfl
    · exact isSome_of_needed uid
    · exact isSome_of_needed content
    · cases required
    · cases required
    · exact isSome_of_needed createdAt
    · exact isSome_of_needed updatedAt
    all_goals cases required
  within _ hm _ h := not_accepts_of_hasFlaw hm h

end MemoRecord

namespace Snapshot

theorem strict : record.IsStrict HasFlaw where
  distinct := by decide
  exact m hm := by
    simp only [record, List.mem_cons, List.not_mem_nil, or_false] at hm
    rcases hm with rfl | rfl | rfl
    · exact fun _ => IsExact.text.map
    · exact fun _ => IsExact.parsed.map
    · exact fun _ => (IsExact.record MemoRecord.strict.exact).list.map
  blank := by decide
  tracks m hm d := by
    simp only [record, List.mem_cons, List.not_mem_nil, or_false] at hm
    rcases hm with rfl | rfl | rfl
    all_goals
      refine Ensures.after fun v => .pure fun m' hm' => ?_
      simp only [record, List.mem_cons, List.not_mem_nil, or_false] at hm'
      rcases hm' with rfl | rfl | rfl <;> rfl
  required m hm required d v build := by
    obtain ⟨_, version, build⟩ := exists_ok_of_bind build
    obtain ⟨_, exportedAt, -⟩ := exists_ok_of_bind build
    simp only [record, List.mem_cons, List.not_mem_nil, or_false] at hm
    rcases hm with rfl | rfl | rfl
    · exact isSome_of_needed version
    · exact isSome_of_needed exportedAt
    · cases required
  within m hm text h d d' accepted := by
    simp only [record, List.mem_cons, List.not_mem_nil, or_false] at hm
    rcases hm with rfl | rfl | rfl
    · exact h
    · exact h
    · obtain ⟨ms, read⟩ := accepted.of_map
      exact Accepts.not_hasItem (.record MemoRecord.strict.exact)
        (fun _ _ flaw => MemoRecord.strict.not_accepts flaw) h read

end Snapshot

/-! ## Spoiled documents -/

namespace MemoRecord

/-- The value of the field is the location of the record, spoiled, or a list with an attachment or
a relation of the record that is spoiled. What else is in the list does not matter. -/
def HasSpoiled (m : MemoRecord) (field : String) (text : Bytes) : Prop :=
  match field with
  | "location" => ∃ l ∈ m.location, Json.IsSpoiled l.slots (fun _ _ => False) text
  | "attachments" =>
    HasItem (fun text => ∃ a ∈ m.attachments, Json.IsSpoiled a.slots (fun _ _ => False) text) text
  | "relations" =>
    HasItem (fun text => ∃ r ∈ m.relations, Json.IsSpoiled r.slots (fun _ _ => False) text) text
  | _ => False

/-- The text is that of the record, but one of its objects is spoiled. -/
def IsSpoiled (m : MemoRecord) : Bytes → Prop := Json.IsSpoiled m.slots m.HasSpoiled

theorem HasSpoiled.hasFlaw {m : MemoRecord} {field : String} {text : Bytes}
    (h : m.HasSpoiled field text) : HasFlaw field text := by
  unfold HasSpoiled at h
  split at h
  · obtain ⟨l, -, spoiled⟩ := h
    exact spoiled.isFlawed Location.strict.distinct fun _ _ => id
  · refine h.mono fun _ ⟨a, _, spoiled⟩ => ?_
    exact spoiled.isFlawed AttachmentRef.strict.distinct fun _ _ => id
  · refine h.mono fun _ ⟨r, _, spoiled⟩ => ?_
    exact spoiled.isFlawed RelationRef.strict.distinct fun _ _ => id
  · exact h.elim

theorem IsSpoiled.isFlawed {m : MemoRecord} {text : Bytes} (h : m.IsSpoiled text) :
    IsFlawed text :=
  Json.IsSpoiled.isFlawed h strict.distinct fun _ _ => HasSpoiled.hasFlaw

end MemoRecord

namespace Snapshot

/-- The value of the field is a list with a record of the snapshot that is spoiled. What else is in
the list does not matter. -/
def HasSpoiled (s : Snapshot) (field : String) (text : Bytes) : Prop :=
  match field with
  | "records" => HasItem (fun text => ∃ m ∈ s.records, m.IsSpoiled text) text
  | _ => False

/-- The bytes are a document that holds the snapshot, perhaps with white space around it, but one of
its objects is spoiled: it has another member for a field that comes, or is without the member of a
required one. -/
def IsSpoiled (s : Snapshot) (bs : Bytes) : Prop :=
  ∃ before text after, AllSpace before ∧ AllSpace after ∧ Json.IsSpoiled s.slots s.HasSpoiled text ∧
    bs = before ++ (text ++ after)

theorem HasSpoiled.hasFlaw {s : Snapshot} {field : String} {text : Bytes}
    (h : s.HasSpoiled field text) : HasFlaw field text := by
  unfold HasSpoiled at h
  split at h
  · exact h.mono fun _ ⟨m, _, spoiled⟩ => spoiled.isFlawed
  · exact h.elim

/-- **A document is flawed once a known member was added to one of its objects, or a required one
removed.** -/
theorem IsSpoiled.isFlawed {s : Snapshot} {bs : Bytes} (h : s.IsSpoiled bs) : IsFlawed bs := by
  obtain ⟨before, text, after, hb, ha, spoiled, e⟩ := h
  have flaw := spoiled.isFlawed strict.distinct fun _ _ => HasSpoiled.hasFlaw
  exact ⟨before, text, after, hb, ha, flaw, e⟩

/-! ## What is decoded -/

/-- **A flawed snapshot is never decoded.** -/
theorem decode_of_isFlawed {bs : Bytes} (h : IsFlawed bs) :
    ∃ fault, decode bs = .error (.malformedSnapshot fault) := by
  obtain ⟨before, text, after, hb, ha, flaw, rfl⟩ := h
  refine (decode_cases _).resolve_left fun ⟨s, hd⟩ => ?_
  exact strict.not_accepts flaw
    (.of_run (.record strict.exact) flaw.isValue hb ha (run_of_decode hd))

/-- **Every document of a snapshot is decoded as it, and no flawed one is decoded at all.** -/
theorem decode_documents (s : Snapshot) (h : s.IsFinite) :
    (∀ bs, s.IsDocument bs → decode bs = .ok s) ∧
      ∀ bs, IsFlawed bs → ∃ fault, decode bs = .error (.malformedSnapshot fault) :=
  ⟨fun _ => decode_of_isDocument h, fun _ => decode_of_isFlawed⟩

/-! ## A document, and two that are spoiled -/

/-- A snapshot with a record that relates to another one. -/
def related : Snapshot where
  version := "1.0"
  exportedAt := .epoch
  records := [{
    uid := "a"
    content := "b"
    visibility := ""
    pinned := false
    createdAt := .epoch
    updatedAt := .epoch
    displayTime := none
    tags := []
    location := none
    attachments := []
    relations := [⟨"c", "d"⟩] }]

/-- Its record under old names, from the last member to the first, with a member that is not known
and a time that is `null`; the members that are equal to their default are left out. -/
def oldRecord (relation : List (String × Value)) : Value :=
  .object [("relations", .list [.object relation]), ("display_time", .null),
    ("unknown", .list [.object [], .null]), ("updated_at", .text Instant.epoch.text),
    ("created_at", .text Instant.epoch.text), ("content", .text "b"), ("uid", .text "a")]

def oldRelation : List (String × Value) := [("type", .text "d"), ("related_memo_uid", .text "c")]

/-- The snapshot with the record. -/
def oldSnapshot (record : Value) : Value :=
  .object [("memos", .list [record]), ("exported_at", .text Instant.epoch.text),
    ("version", .text "1.0")]

/-- The members of a written object. -/
def membersOf : Value → List (String × Value)
  | .object ms => ms
  | _ => []

/-- The members of the old relation, back in order, fill the slots of the relation. -/
theorem fills_oldRelation (depth : Nat) : Fills RelationRef.fields (RelationRef.slots ⟨"c", "d"⟩)
    (oldRelation.map (Entry.written Layout.pretty_valid depth)) := by
  have valid := Layout.pretty_valid
  refine .perm ?_ (List.reverse_perm _)
  refine .written valid (by decide) (spellsText_chars _) ?_
  exact .written valid List.mem_cons_self (spellsText_chars _) .done

/-- The members of the old record, back in order, fill the slots of the record. -/
theorem fills_oldRecord (m : MemoRecord) (hm : m ∈ related.records) (depth : Nat) :
    Fills MemoRecord.fields m.slots
      ((membersOf (oldRecord oldRelation)).map (Entry.written Layout.pretty_valid depth)) := by
  obtain rfl := List.mem_singleton.1 hm
  have valid := Layout.pretty_valid
  have relations : IsListOf (fun r => IsForm (RelationRef.slots r)) [⟨"c", "d"⟩]
      (bytes ((Value.list [.object oldRelation]).chars .pretty depth)) := by
    refine ⟨_, ?_, Value.isList_chars valid _ _⟩
    exact .cons (.written valid (fills_oldRelation _)) .nil
  refine .perm ?_ (List.reverse_perm _)
  refine .written valid List.mem_cons_self (spellsText_chars _) ?_
  refine .written valid List.mem_cons_self (spellsText_chars _) (.skip rfl (.skip rfl ?_))
  refine .written valid List.mem_cons_self (spellsText_chars _) ?_
  refine .written valid List.mem_cons_self (spellsText_chars _) ?_
  refine .unknown ⟨"unknown", denotes_escapes _, by decide⟩ ?_
  refine .written valid List.mem_cons_self rfl (.skip rfl (.skip rfl (.skip rfl ?_)))
  exact .written valid List.mem_cons_self relations .done

/-- The members of an old snapshot, back in order, fill the slots of the one with the records. -/
theorem fills_oldSnapshot {ms : List MemoRecord} {v : Value} {depth : Nat}
    (h : IsListOf (fun m => IsForm m.slots) ms (bytes (v.chars .pretty depth))) :
    Fills fields { related with records := ms }.slots
      ([("memos", v), ("exported_at", .text Instant.epoch.text), ("version", .text "1.0")].map
        (Entry.written Layout.pretty_valid depth)) := by
  have valid := Layout.pretty_valid
  refine .perm ?_ (List.reverse_perm _)
  refine .written valid List.mem_cons_self (spellsText_chars _) ?_
  refine .written valid List.mem_cons_self (spellsText_chars _) ?_
  exact .written valid (List.mem_cons_of_mem _ List.mem_cons_self) h .done

theorem isListOf_oldRecord (depth : Nat) : IsListOf (fun m => IsForm m.slots) related.records
    (bytes ((Value.list [oldRecord oldRelation]).chars .pretty depth)) := by
  have valid := Layout.pretty_valid
  refine ⟨_, ?_, Value.isList_chars valid _ _⟩
  exact .cons (.written valid (fills_oldRecord _ List.mem_cons_self _)) .nil

/-- A line feed and the written value. -/
def onNewLine (v : Value) : Bytes := byteOf '\n' :: bytes (v.chars .pretty 0)

theorem exists_onNewLine (P : Bytes → Prop) {v : Value} (h : P (bytes (v.chars .pretty 0))) :
    ∃ before text after, AllSpace before ∧ AllSpace after ∧ P text ∧
      onNewLine v = before ++ (text ++ after) := by
  refine ⟨[byteOf '\n'], _, [], fun b hb => ?_, allSpace_nil, h, ?_⟩
  · rw [List.mem_singleton.1 hb]
    decide
  · rw [List.append_nil]
    rfl

theorem isDocument_old : related.IsDocument (onNewLine (oldSnapshot (oldRecord oldRelation))) :=
  exists_onNewLine (IsForm related.slots)
    (.written Layout.pretty_valid (fills_oldSnapshot (isListOf_oldRecord _)))

/-- The relation is without its type. -/
theorem isSpoiled_untyped :
    related.IsSpoiled (onNewLine (oldSnapshot (oldRecord [("related_memo_uid", .text "c")]))) := by
  have valid := Layout.pretty_valid
  have relation (depth : Nat) : Json.IsSpoiled (RelationRef.slots ⟨"c", "d"⟩) (fun _ _ => False)
      (bytes ((Value.object [("related_memo_uid", .text "c")]).chars .pretty depth)) :=
    .written valid (fills_oldRelation _)
      (.removed [] _ (f := .needed "type") (by decide) rfl
        (Entry.names_written valid List.mem_cons_self))
  have record (m : MemoRecord) (hm : m ∈ related.records) (depth : Nat) : m.IsSpoiled
      (bytes ((oldRecord [("related_memo_uid", .text "c")]).chars .pretty depth)) := by
    obtain rfl := List.mem_singleton.1 hm
    exact .written valid (fills_oldRecord _ List.mem_cons_self _)
      (.within [] _ (f := .spare "relations") (by decide)
        (Entry.names_written valid List.mem_cons_self)
        (Entry.names_written valid List.mem_cons_self)
        (HasItem.written valid List.mem_cons_self ⟨_, List.mem_cons_self, relation _⟩))
  refine exists_onNewLine (Json.IsSpoiled related.slots related.HasSpoiled) ?_
  exact .written valid (fills_oldSnapshot (isListOf_oldRecord _))
    (.within [] _ (f := (Field.spare "records").orNamed "memos") (by decide)
      (Entry.names_written valid (by decide)) (Entry.names_written valid (by decide))
      (HasItem.written valid List.mem_cons_self
        ⟨_, List.mem_cons_self, record _ List.mem_cons_self _⟩))

/-- The records come under both names. -/
def twice : Value :=
  .object [("memos", .list []), ("exported_at", .text Instant.epoch.text),
    ("records", .list []), ("version", .text "1.0")]

theorem isSpoiled_twice : { related with records := [] }.IsSpoiled (onNewLine twice) := by
  have valid := Layout.pretty_valid
  have records : IsListOf (fun m => IsForm (MemoRecord.slots m)) []
      (bytes ((Value.list []).chars .pretty 1)) := ⟨[], .nil, Value.isList_chars valid 1 []⟩
  refine exists_onNewLine (Json.IsSpoiled _ (HasSpoiled _)) ?_
  exact .written valid (fills_oldSnapshot records)
    (.added [_, _] [_] (f := (Field.spare "records").orNamed "memos") List.mem_cons_self (by decide)
      (Entry.names_written valid (by decide)) (Entry.names_written valid (by decide)))

theorem decode_documents_related :
    related.IsFinite ∧
      related.IsDocument (onNewLine (oldSnapshot (oldRecord oldRelation))) ∧
      decode (onNewLine (oldSnapshot (oldRecord oldRelation))) = .ok related ∧
      (∃ fault, decode (onNewLine (oldSnapshot (oldRecord [("related_memo_uid", .text "c")]))) =
        .error (.malformedSnapshot fault)) ∧
      ∃ fault, decode (onNewLine twice) = .error (.malformedSnapshot fault) := by
  have finite : related.IsFinite := by decide
  obtain ⟨reads, refuses⟩ := decode_documents related finite
  exact ⟨finite, isDocument_old, reads _ isDocument_old, refuses _ isSpoiled_untyped.isFlawed,
    refuses _ isSpoiled_twice.isFlawed⟩

end Snapshot

end MemoTransfer
