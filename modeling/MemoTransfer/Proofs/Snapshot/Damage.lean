import MemoTransfer.Proofs.Json.Crossing
import MemoTransfer.Proofs.Transfer.Importing

/-!
# Damaged snapshots

The bytes of a snapshot are damaged if some are missing at their end, or if other bytes than white
space follow them (`Snapshot.IsDamaged`). Whatever is read as a snapshot is white space around a
whole text (`Snapshot.isWhole_of_decode`), and the bytes of a snapshot are a whole text as well,
also those of a snapshot that is not read back. So damaged bytes are no snapshot, wherever the
damage is, and an import of them writes nothing (`Snapshot.importAs_damaged`).
-/

namespace MemoTransfer

open MemoTransfer.Json MemoTransfer.Calendar MemoTransfer.Utf8

/-! ## Members -/

theorem Calendar.Instant.reader_balanced : Balanced Instant.reader := Reader.parsed_balanced

theorem Location.balanced : Balanced Location.record.reader := by
  refine Record.balanced fun m hm => ?_
  simp only [record, List.mem_cons, List.not_mem_nil, or_false] at hm
  rcases hm with rfl | rfl | rfl
  · exact fun _ => Reader.text_balanced.map
  · exact fun _ => Reader.floating_balanced.map
  · exact fun _ => Reader.floating_balanced.map

theorem AttachmentRef.balanced : Balanced AttachmentRef.record.reader := by
  refine Record.balanced fun m hm => ?_
  simp only [record, List.mem_cons, List.not_mem_nil, or_false] at hm
  rcases hm with rfl | rfl | rfl | rfl
  · exact fun _ => Reader.text_balanced.map
  · exact fun _ => Reader.text_balanced.map
  · exact fun _ => Reader.text_balanced.map
  · exact fun _ => Reader.int64_balanced.map

theorem RelationRef.balanced : Balanced RelationRef.record.reader := by
  refine Record.balanced fun m hm => ?_
  simp only [record, List.mem_cons, List.not_mem_nil, or_false] at hm
  rcases hm with rfl | rfl
  · exact fun _ => Reader.text_balanced.map
  · exact fun _ => Reader.text_balanced.map

theorem MemoRecord.balanced : Balanced MemoRecord.record.reader := by
  refine Record.balanced fun m hm => ?_
  simp only [record, List.mem_cons, List.not_mem_nil, or_false] at hm
  rcases hm with rfl | rfl | rfl | rfl | rfl | rfl | rfl | rfl | rfl | rfl | rfl
  · exact fun _ => Reader.text_balanced.map
  · exact fun _ => Reader.text_balanced.map
  · exact fun _ => Reader.text_balanced.map
  · exact fun _ => Reader.boolean_balanced.map
  · exact fun _ => Instant.reader_balanced.map
  · exact fun _ => Instant.reader_balanced.map
  · exact fun _ => (Reader.optional_balanced Instant.reader_balanced).map
  · exact fun _ => (Reader.list_balanced Reader.text_balanced).map
  · exact fun _ => (Reader.optional_balanced Location.balanced).map
  · exact fun _ => (Reader.list_balanced AttachmentRef.balanced).map
  · exact fun _ => (Reader.list_balanced RelationRef.balanced).map

namespace Snapshot

theorem balanced_of_mem : ∀ m ∈ record.members, ∀ d, Balanced (m.read d) := by
  intro m hm
  simp only [record, List.mem_cons, List.not_mem_nil, or_false] at hm
  rcases hm with rfl | rfl | rfl
  · exact fun _ => Reader.text_balanced.map
  · exact fun _ => Instant.reader_balanced.map
  · exact fun _ => (Reader.list_balanced MemoRecord.balanced).map

/-! ## Whole texts -/

theorem isWhole_encode (s : Snapshot) : IsWhole s.encode := by
  rw [encode, Value.pretty, Utf8.encode_ofList]
  refine (Value.isObject_chars Layout.pretty_valid 0 _).isWhole fun e he => ?_
  obtain ⟨m, -, rfl⟩ := List.mem_map.1 he
  exact Value.isValue_chars Layout.pretty_valid 1 m.2

/-- **What is read as a snapshot is white space around a whole text.** -/
theorem isWhole_of_decode {bs : Bytes} {s : Snapshot} (h : decode bs = .ok s) :
    ∃ before used after, bs = before ++ (used ++ after) ∧ AllSpace before ∧ IsWhole used ∧
      AllSpace after := by
  obtain ⟨after, read, rest⟩ := Reader.yields_of_run (run_of_decode h)
  obtain ⟨before, used, parts, hbefore, whole⟩ := Record.isWhole_of_yields balanced_of_mem read
  refine ⟨before, used, after, parts, hbefore, whole, ?_⟩
  exact List.dropWhile_eq_nil_iff.1 (List.isEmpty_iff.1 rest)

/-- A snapshot that is read from a beginning or a continuation of a whole text is that text. -/
theorem eq_of_decode {bs text : Bytes} {s : Snapshot} (h : decode bs = .ok s) (hw : IsWhole text)
    (near : bs <+: text ∨ text <+: bs) : ∃ after, bs = text ++ after ∧ AllSpace after := by
  obtain ⟨before, used, after, rfl, hbefore, whole, hafter⟩ := isWhole_of_decode h
  have none : before = [] := by
    obtain ⟨first, inner, last, rfl, opens, -, -⟩ := hw
    have mark : isSpace first = false := by
      simp only [List.mem_cons, List.not_mem_nil, or_false] at opens
      rcases opens with e | e <;> rw [eq_byteOf e] <;> decide
    cases before with
    | nil => rfl
    | cons b bs =>
      have same : b = first := by
        rcases near with h | h
        · exact (List.cons_prefix_cons.1 h).1
        · exact (List.cons_prefix_cons.1 h).1.symm
      have space := hbefore b List.mem_cons_self
      rw [same, mark] at space
      cases space
  subst none
  rw [List.nil_append] at near ⊢
  have same : used = text := by
    rcases near with h | h
    · exact whole.eq_of_prefix hw ((List.prefix_append used after).trans h)
    · rcases List.prefix_or_prefix_of_prefix (List.prefix_append used after) h with h | h
      · exact whole.eq_of_prefix hw h
      · exact (hw.eq_of_prefix whole h).symm
  exact ⟨after, by rw [same], hafter⟩

/-! ## Damage -/

/-- Some bytes are missing at the end, or others than white space follow. -/
def IsDamaged (s : Snapshot) (bs : Bytes) : Prop :=
  (bs <+: s.encode ∧ bs ≠ s.encode) ∨
    ∃ tail, bs = s.encode ++ tail ∧ ∃ b ∈ tail, isSpace b = false

/-- Damaged bytes are no snapshot, neither the one that they come from nor another one. -/
theorem IsDamaged.exists_fault {s : Snapshot} {bs : Bytes} (h : s.IsDamaged bs) :
    ∃ fault, decode bs = .error (.malformedSnapshot fault) := by
  refine (decode_cases bs).resolve_left fun ⟨s', hd⟩ => ?_
  rcases h with ⟨short, ne⟩ | ⟨tail, parts, b, hb, mark⟩
  · obtain ⟨after, parts, -⟩ := eq_of_decode hd s.isWhole_encode (.inl short)
    rw [parts] at short ne
    exact ne ((List.prefix_append _ _).eq_of_length_le short.length_le).symm
  · rw [parts] at hd
    obtain ⟨after, e, space⟩ := eq_of_decode hd s.isWhole_encode (.inr (List.prefix_append _ _))
    rw [List.append_cancel_left e] at hb
    have := space b hb
    rw [mark] at this
    cases this

/-- **A damaged snapshot is refused, and importing it changes nothing.** The fault is one of form or
of content; no record is taken from the part before it. -/
theorem importAs_damaged (s : Snapshot) {bs : Bytes} (damaged : s.IsDamaged bs) :
    ∃ fault, decode bs = .error (.malformedSnapshot fault) ∧
      ∀ (store : Store) (username format : String) (options : ImportOptions) (now : Int),
        (store.user? username).isSome → format ∈ ["", jsonFormat] →
        store.importAs username ⟨bs, format, options⟩ now =
          (.error (.malformedSnapshot fault), store) := by
  obtain ⟨fault, refused⟩ := damaged.exists_fault
  refine ⟨fault, refused, fun store username format options now known accepted => ?_⟩
  obtain ⟨user, hu⟩ := Option.isSome_iff_exists.1 known
  have request : (ImportRequest.mk bs format options).snapshot =
      .error (.malformedSnapshot fault) := by
    have hf : resolveFormat format = .ok jsonFormat := if_pos (by simpa using accepted)
    rw [ImportRequest.snapshot]
    dsimp only
    rw [hf, refused]
    rfl
  exact Store.importAs_of_error hu request now

/-- The sample without its last byte. -/
theorem isDamaged_dropLast : sample.IsDamaged sample.encode.dropLast := by
  refine .inl ⟨List.dropLast_prefix _, fun e => ?_⟩
  obtain ⟨first, inner, last, whole, -⟩ := sample.isWhole_encode
  have := congrArg List.length e
  rw [whole, List.length_dropLast, List.length_cons] at this
  omega

/-- The sample with a brace behind it. -/
theorem isDamaged_append_brace : sample.IsDamaged (sample.encode ++ [byteOf '}']) :=
  .inr ⟨_, rfl, _, List.mem_singleton.2 rfl, by decide⟩

theorem importAs_damaged_sample :
    ∃ store : Store, (store.user? "alice").isSome ∧
      (sample.IsDamaged sample.encode.dropLast ∧
        ∃ fault, store.importAs "alice" ⟨sample.encode.dropLast, "json", {}⟩ 0 =
          (.error (.malformedSnapshot fault), store)) ∧
      sample.IsDamaged (sample.encode ++ [byteOf '}']) ∧
        ∃ fault, store.importAs "alice" ⟨sample.encode ++ [byteOf '}'], "", {}⟩ 0 =
          (.error (.malformedSnapshot fault), store) := by
  refine ⟨{ users := [⟨1, "alice"⟩], lastUser := 1 }, by decide, ⟨isDamaged_dropLast, ?_⟩,
    isDamaged_append_brace, ?_⟩
  · obtain ⟨fault, -, refused⟩ := importAs_damaged sample isDamaged_dropLast
    exact ⟨fault, refused _ "alice" "json" {} 0 (by decide) (by decide)⟩
  · obtain ⟨fault, -, refused⟩ := importAs_damaged sample isDamaged_append_brace
    exact ⟨fault, refused _ "alice" "" {} 0 (by decide) (by decide)⟩

end Snapshot

end MemoTransfer
