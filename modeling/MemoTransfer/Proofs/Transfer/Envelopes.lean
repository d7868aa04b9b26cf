import MemoTransfer.Json.Reader.Value
import MemoTransfer.Proofs.Json.Ensures
import MemoTransfer.Proofs.Json.Fields
import MemoTransfer.Proofs.Text.Base64
import MemoTransfer.Transfer.Envelope

/-!
# Envelopes are read back

What is written of a request or a response is read as the same one, on one line and on several
(`ExportRequest.run_shown`, `ExportResponse.run_shown`, `ImportRequest.run_shown`). The data of a
snapshot are accepted in one form only, their standard form in base64 (`yields_dataReader_iff`). A
response of an export is a request for an import of its data: its other members stand in the places
of options but name none, so that all options keep their defaults (`ImportRequest.run_response`).

`envelopes_round_trip` states this for all envelopes.
-/

namespace MemoTransfer

open MemoTransfer.Json MemoTransfer.Text MemoTransfer.Utf8

variable {layout : Layout}

/-! ## Values of any kind -/

namespace Json

theorem SpellsText.value {s : String} {bs : Bytes} (h : SpellsText s bs) (depth : Nat) :
    Gives (Reader.value depth) bs (.text s) := by
  obtain ⟨body, hb, rfl⟩ := h
  refine ⟨⟨'"', _, rfl, by decide⟩, fun space rest hs _ => ?_⟩
  simp only [List.cons_append, List.append_assoc, List.nil_append]
  unfold Reader.value
  refine (Reader.start_yields hs (by decide) _).bind ?_
  exact (Reader.advance_yields _ _).bind ((Reader.stringBody_denotes hb rest).bind (.pure _ _))

theorem Gives.value_boolean (b : Bool) (layout : Layout) (level depth : Nat) :
    Gives (Reader.value depth) (bytes ((Value.boolean b).chars layout level)) (.boolean b) := by
  cases b with
  | true =>
    refine ⟨⟨'t', _, rfl, by decide⟩, fun space rest hs _ => ?_⟩
    have word : Yields Reader.yes (bytes ['t', 'r', 'u', 'e'] ++ rest) ⟨⟩ rest :=
      Reader.letters_yields (by simp) rest
    unfold Reader.value
    exact (Reader.start_yields (c := 't') hs (by decide) _).bind (word.bind (.pure _ _))
  | false =>
    refine ⟨⟨'f', _, rfl, by decide⟩, fun space rest hs _ => ?_⟩
    have word : Yields Reader.no (bytes ['f', 'a', 'l', 's', 'e'] ++ rest) ⟨⟩ rest :=
      Reader.letters_yields (by simp) rest
    unfold Reader.value
    exact (Reader.start_yields (c := 'f') hs (by decide) _).bind (word.bind (.pure _ _))

theorem Gives.value_integer {n : Int} (least : -2 ^ 63 ≤ n) (most : n < 2 ^ 64) (depth : Nat) :
    Gives (Reader.value depth) (bytes (Number.intDigits n)) (.integer n) := by
  rw [← Numeral.chars_ofInt, Numeral.chars_eq_front]
  obtain ⟨c, tl, e, hc, number⟩ := (Numeral.ofInt n).number_yields (Numeral.wellFormed_ofInt n)
    (spellsPower_powerChars _) (Numeral.value_ofInt least most)
  rw [e]
  refine ⟨⟨c, tl, rfl, opens_of_sign hc⟩, fun space rest hs hr => ?_⟩
  unfold Reader.value
  refine (Reader.start_yields hs (opens_of_sign hc) _).bind ?_
  rw [if_neg (ne_of_sign hc (by decide)), if_neg (ne_of_sign hc (by decide)),
    if_neg (ne_of_sign hc (by decide)), if_pos hc]
  exact (number rest hr).bind (.pure _ _)

/-! ## Members -/

/-- The value of a member, behind the colon. -/
theorem Gives.member {α β : Type} {r : Reader α} {e : Entry} {v : α} (h : Gives r e.value v)
    (f : α → β) {rest : Bytes} (hr : EndsNumeral rest) :
    Yields (do Reader.colon; return f (← r))
      (e.gap ++ byteOf ':' :: (e.space ++ (e.value ++ rest))) (f v) rest :=
  (Reader.colon_yields e.allSpace_gap _).bind (h.yields _ _ e.allSpace_space hr).bind_pure

/-! ## Written texts -/

/-- The value as text, on several lines or on one. -/
def Value.shown (onLines : Bool) (v : Value) : String := if onLines then v.pretty else v.compact

theorem Value.exists_layout (onLines : Bool) :
    ∃ layout : Layout, layout.Valid ∧
      ∀ v : Value, Utf8.encode (v.shown onLines) = bytes (v.chars layout 0) := by
  cases onLines with
  | true => exact ⟨.pretty, Layout.pretty_valid, fun _ => encode_ofList _⟩
  | false => exact ⟨.compact, Layout.compact_valid, fun _ => encode_ofList _⟩

end Json

/-! ## Data -/

theorem Json.SpellsText.data {text : String} {bs data : Bytes} (h : SpellsText text bs)
    (hd : Base64.IsWritten text.toList data) : Gives dataReader bs data :=
  h.parsed (by rw [Base64.decode_encode_eq_ok_iff.2 hd]; rfl)

/-- **Wherever data are read, a string is accepted just if it is their standard form.** -/
theorem yields_dataReader_iff {s t data : Bytes} :
    Yields dataReader s data t ↔
      ∃ text, Yields Reader.text s text t ∧ Base64.IsWritten text.toList data := by
  constructor
  · intro h
    obtain ⟨text, t', read, decoded⟩ := h.of_bind
    dsimp only at decoded
    cases hd : Base64.decode (Utf8.encode text) with
    | error fault =>
      rw [hd] at decoded
      exact absurd decoded Yields.not_throw
    | ok data' =>
      rw [hd] at decoded
      obtain ⟨rfl, rfl⟩ := decoded.of_pure
      exact ⟨text, read, Base64.decode_encode_eq_ok_iff.1 hd⟩
  · rintro ⟨text, read, hd⟩
    refine read.bind ?_
    dsimp only
    rw [Base64.decode_encode_eq_ok_iff.2 hd]
    exact .pure _ _

/-- An object whose first member is a text in the place of the data. -/
def carrying (text : String) (others : List (String × Value)) : Value :=
  .object (("data", .text text) :: others)

/-- The first member of such an object is read as data only if it is the standard form of some. -/
theorem exists_isWritten_of_members {σ : Type} {read : σ → String → Reader σ} {d d' : σ}
    (reads : ∀ s d' t, Yields (read d "data") s d' t →
      ∃ s' data t', Yields Reader.colon s ⟨⟩ s' ∧ Yields dataReader s' data t')
    (hl : layout.Valid) {depth : Nat} {text : String} {others : List (String × Value)}
    {bs rest t : Bytes}
    (hp : Parts true (((("data", .text text) :: others).map
      (Entry.written hl depth)).map Entry.text) bs)
    (h : Yields (Reader.members read d) (bs ++ byteOf '}' :: rest) d' t) :
    ∃ data, Base64.IsWritten text.toList data := by
  have name := Entry.denotes_written hl depth "data" (.text text)
  obtain ⟨rest', d₁, t₁, hr, first⟩ := Reader.first_of_members hp name h
  obtain ⟨s', data, t', colon, value⟩ := reads _ _ _ first
  obtain ⟨-, rfl⟩ := colon.unique (Reader.colon_yields (Entry.allSpace_gap _) _)
  obtain ⟨text', string, hd⟩ := yields_dataReader_iff.1 value
  have same : text = text' :=
    (((spellsText_chars text).text.yields _ _ (Entry.allSpace_space _) hr).unique string).1
  exact ⟨data, same ▸ hd⟩

/-- What is read whenever a text is the standard form of some data, and never otherwise. -/
theorem eq_ok_iff_isWritten {ε α : Type} {x : Except ε α} {text : String} (put : Bytes → α)
    (get : α → Bytes)
    (accepted : ∀ data, Base64.IsWritten text.toList data → x = .ok (put data))
    (needs : ∀ v, x = .ok v → ∃ data, Base64.IsWritten text.toList data)
    (get_put : ∀ data, get (put data) = data) {v : α} :
    x = .ok v ↔ Base64.IsWritten text.toList (get v) ∧ v = put (get v) := by
  constructor
  · intro h
    obtain ⟨data, hd⟩ := needs v h
    rw [accepted data hd] at h
    cases h
    rw [get_put]
    exact ⟨hd, rfl⟩
  · rintro ⟨hd, e⟩
    rw [accepted _ hd, ← e]

/-! ## Exports -/

namespace ExportRequest

/-- The members of a request. -/
def slots (r : ExportRequest) : List Slot :=
  [⟨.spare "format", SpellsText r.format, r.format = ""⟩,
   ⟨.spare "filter", IsOptional SpellsText r.filter, r.filter = none⟩,
   ⟨.spare "exclude_archived", IsWritten (.boolean r.excludeArchived), r.excludeArchived = false⟩,
   ⟨.spare "include_attachments", IsWritten (.boolean r.includeAttachments),
    r.includeAttachments = false⟩,
   ⟨.spare "include_relations", IsWritten (.boolean r.includeRelations),
    r.includeRelations = false⟩]

/-- The draft that holds the given members of a request. -/
def filled (r : ExportRequest) (given : String → Bool) : Draft where
  format := ifGiven (given "format") r.format
  filter := ifGiven (given "filter") r.filter
  excludeArchived := ifGiven (given "exclude_archived") r.excludeArchived
  includeAttachments := ifGiven (given "include_attachments") r.includeAttachments
  includeRelations := ifGiven (given "include_relations") r.includeRelations

theorem gives {r : ExportRequest} {bs : Bytes} (h : IsForm r.slots bs) :
    Gives record.reader bs r := by
  refine IsForm.gives r.filled (by decide) ?_ rfl (fun given filled => ?_) h
  · exact .cons (.of (fun _ => rfl) (fun _ => rfl) fun _ h => h.text)
      (.cons (.of (fun _ => rfl) (fun _ => rfl) fun _ h =>
        h.gives fun _ _ _ h => h.optional h.text)
        (.cons (.of (fun _ => rfl) (fun _ => rfl) fun _ h => h.gives (.boolean _ _ _))
          (.cons (.of (fun _ => rfl) (fun _ => rfl) fun _ h => h.gives (.boolean _ _ _))
            (.cons (.of (fun _ => rfl) (fun _ => rfl) fun _ h => h.gives (.boolean _ _ _))
              .nil))))
  · simp only [slots, Field.spare, List.forall_mem_cons] at filled
    obtain ⟨format, filter, excludeArchived, includeAttachments, includeRelations, -⟩ := filled
    simp only [record, ExportRequest.filled, getD_ifGiven format, getD_ifGiven filter,
      getD_ifGiven excludeArchived, getD_ifGiven includeAttachments,
      getD_ifGiven includeRelations]

theorem isOptional_filter (filter : Option String) (layout : Layout) (depth : Nat) :
    IsOptional SpellsText filter
      (bytes (((filter.map Value.text).getD .null).chars layout depth)) := by
  cases filter with
  | none => rfl
  | some s => exact spellsText_chars s

theorem isForm_chars (hl : layout.Valid) (r : ExportRequest) (depth : Nat) :
    IsForm r.slots (bytes (r.toJson.chars layout depth)) :=
  .written hl
    (.written hl List.mem_cons_self (spellsText_chars _)
      (.written hl List.mem_cons_self (isOptional_filter _ _ _)
        (.written hl List.mem_cons_self (isWritten_boolean _ _ _)
          (.written hl List.mem_cons_self (isWritten_boolean _ _ _)
            (.written hl List.mem_cons_self (isWritten_boolean _ _ _) .done)))))

/-- **A request for an export is read back.** -/
theorem run_shown (r : ExportRequest) (onLines : Bool) :
    Reader.run record.reader (Utf8.encode (r.toJson.shown onLines)) = .ok r := by
  obtain ⟨layout, hl, written⟩ := Value.exists_layout onLines
  rw [written]
  exact (gives (r.isForm_chars hl 0)).run_bytes

end ExportRequest

namespace ExportResponse

/-- The members of the written form of a response beside its data. -/
def others (r : ExportResponse) : List (String × Value) :=
  [("format", .text r.format), ("filename", .text r.filename),
    ("memo_count", .integer r.memoCount.toNat), ("size_bytes", .integer r.sizeBytes.toNat)]

theorem toJson_eq_carrying (r : ExportResponse) :
    r.toJson = carrying (String.ofList (Base64.encode r.data)) r.others := rfl

/-- The members of a response whose data are given by a text. -/
def slots (r : ExportResponse) (text : String) : List Slot :=
  [⟨.needed "data", SpellsText text, False⟩,
   ⟨.needed "format", SpellsText r.format, False⟩,
   ⟨.needed "filename", SpellsText r.filename, False⟩,
   ⟨.needed "memo_count", IsWritten (.integer r.memoCount.toNat), False⟩,
   ⟨.needed "size_bytes", IsWritten (.integer r.sizeBytes.toNat), False⟩]

/-- The draft that holds the given members of a response. -/
def filled (r : ExportResponse) (given : String → Bool) : Draft where
  data := ifGiven (given "data") r.data
  format := ifGiven (given "format") r.format
  filename := ifGiven (given "filename") r.filename
  memoCount := ifGiven (given "memo_count") r.memoCount
  sizeBytes := ifGiven (given "size_bytes") r.sizeBytes

theorem gives {r : ExportResponse} {text : String} (hd : Base64.IsWritten text.toList r.data)
    {bs : Bytes} (h : IsForm (r.slots text) bs) : Gives record.reader bs r := by
  refine IsForm.gives r.filled (by decide) ?_ rfl (fun given filled => ?_) h
  · exact .cons (.of (fun _ => rfl) (fun _ => rfl) fun _ h => h.data hd)
      (.cons (.of (fun _ => rfl) (fun _ => rfl) fun _ h => h.text)
        (.cons (.of (fun _ => rfl) (fun _ => rfl) fun _ h => h.text)
          (.cons (.of (fun _ => rfl) (fun _ => rfl) fun _ h => h.gives (.uint32 _))
            (.cons (.of (fun _ => rfl) (fun _ => rfl) fun _ h => h.gives (.uint64 _)) .nil))))
  · simp only [slots, Field.needed, List.forall_mem_cons] at filled
    obtain ⟨data, format, filename, memoCount, sizeBytes, -⟩ := filled
    simp only [record, ExportResponse.filled, needed_ifGiven data, needed_ifGiven format,
      needed_ifGiven filename, needed_ifGiven memoCount, needed_ifGiven sizeBytes]
    rfl

theorem isForm_chars (hl : layout.Valid) (r : ExportResponse) (text : String) (depth : Nat) :
    IsForm (r.slots text) (bytes ((carrying text r.others).chars layout depth)) :=
  .written hl
    (.written hl List.mem_cons_self (spellsText_chars _)
      (.written hl List.mem_cons_self (spellsText_chars _)
        (.written hl List.mem_cons_self (spellsText_chars _)
          (.written hl List.mem_cons_self (isWritten_integer _ _ _)
            (.written hl List.mem_cons_self (isWritten_integer _ _ _) .done)))))

/-- A response is read only if the text in the place of its data is the standard form of some. -/
theorem exists_isWritten (hl : layout.Valid) {text : String} {others : List (String × Value)}
    {depth : Nat} {r : ExportResponse} {t : Bytes}
    (h : Yields record.reader (bytes ((carrying text others).chars layout depth)) r t) :
    ∃ data, Base64.IsWritten text.toList data := by
  obtain ⟨inner, hi, e⟩ := Value.isObject_chars hl depth (("data", .text text) :: others)
  rw [carrying, e] at h
  have h := (Reader.advance_yields _ _).next
    ((Reader.start_yields (c := '\x7b') allSpace_nil (by decide) _).next h)
  obtain ⟨d, t', members, -⟩ := h.of_bind
  refine exists_isWritten_of_members (fun s d' t read => ?_) hl hi members
  obtain ⟨⟨⟩, s', colon, member⟩ := read.of_bind
  obtain ⟨data, t', value, -⟩ := member.of_bind
  exact ⟨s', data, t', colon, value⟩

/-- **A response is read just if the text in the place of its data is the standard form of some**,
and these are its data. -/
theorem run_carrying_iff {r r' : ExportResponse} {text : String} {onLines : Bool} :
    Reader.run record.reader (Utf8.encode ((carrying text r.others).shown onLines)) = .ok r' ↔
      Base64.IsWritten text.toList r'.data ∧ r' = { r with data := r'.data } := by
  obtain ⟨layout, hl, written⟩ := Value.exists_layout onLines
  rw [written]
  have positive {data : Bytes} (hd : Base64.IsWritten text.toList data) :
      Reader.run record.reader (bytes ((carrying text r.others).chars layout 0)) =
        .ok { r with data } :=
    (gives (r := { r with data }) hd (isForm_chars hl { r with data } text 0)).run_bytes
  refine eq_ok_iff_isWritten (fun data => { r with data }) (·.data) (fun _ => positive)
    (fun _ h => ?_) fun _ => rfl
  obtain ⟨_, read, -⟩ := Reader.yields_of_run h
  exact exists_isWritten hl read

/-- **The response of an export is read back.** -/
theorem run_shown (r : ExportResponse) (onLines : Bool) :
    Reader.run record.reader (Utf8.encode (r.toJson.shown onLines)) = .ok r := by
  rw [toJson_eq_carrying, run_carrying_iff, String.toList_ofList]
  exact ⟨Base64.isWritten_encode r.data, rfl⟩

end ExportResponse

/-! ## Imports -/

namespace ImportOptions

theorem ofMembers_toMembers (o : ImportOptions) : ofMembers o.toMembers = .ok o := rfl

/-- Members that name no option leave the options as they are. -/
theorem ofMembers_eq_default {ms : List (String × Value)}
    (h : ∀ m ∈ ms, ∀ s ∈ switches, s.name ≠ m.1) : ofMembers ms = .ok {} := by
  have kept : ms.foldlM takeMember {} = .ok {} := by
    induction ms with
    | nil => rfl
    | cons m ms ih =>
      rw [List.forall_mem_cons] at h
      have unknown : switches.find? (·.name = m.1) = none :=
        List.find?_eq_none.2 fun s hs => by simpa using h.1 s hs
      rw [List.foldlM_cons, takeMember, unknown]
      exact ih h.2
  rw [ofMembers, kept]
  rfl

end ImportOptions

namespace ImportRequest

/-- The member is read back beside the data, whatever it says. -/
def StandsBeside (m : String × Value) : Prop :=
  m.1 ≠ "data" ∧ m.1 ≠ "format" ∧
    ∀ layout level, Gives (Reader.value depthLimit) (bytes (m.2.chars layout level)) m.2

theorem readMember_beside (hl : layout.Valid) {depth : Nat} {m : String × Value}
    (h : StandsBeside m) (d : Draft) {rest : Bytes} (hr : EndsNumeral rest) :
    Yields (readMember d m.1) ((Entry.written hl depth m).gap ++ byteOf ':' ::
      ((Entry.written hl depth m).space ++ ((Entry.written hl depth m).value ++ rest)))
      { d with beside := m :: d.beside } rest := by
  obtain ⟨notData, notFormat, value⟩ := h
  unfold readMember
  rw [if_neg notData, if_neg notFormat]
  exact (value layout depth).member _ hr

theorem gathers_beside (hl : layout.Valid) (depth : Nat) {ms : List (String × Value)}
    (h : ∀ m ∈ ms, StandsBeside m) (d : Draft) :
    Gathers readMember d (ms.map (Entry.written hl depth))
      { d with beside := ms.reverse ++ d.beside } := by
  induction ms generalizing d with
  | nil => exact .nil d
  | cons m ms ih =>
    rw [List.forall_mem_cons] at h
    refine .cons (Entry.denotes_written hl depth m.1 m.2)
      (fun _ hr => readMember_beside hl h.1 d hr) ?_
    have further := ih h.2 { d with beside := m :: d.beside }
    rwa [show ms.reverse ++ m :: d.beside = (m :: ms).reverse ++ d.beside by simp] at further

/-- The members of the written form of a request beside its data. -/
def others (r : ImportRequest) : List (String × Value) :=
  ("format", .text r.format) :: r.options.toMembers

theorem toJson_eq_carrying (r : ImportRequest) :
    r.toJson = carrying (String.ofList (Base64.encode r.data)) r.others := rfl

/-- The data, the format and members beside them make up a request. -/
theorem gives (hl : layout.Valid) {text format : String} {data : Bytes}
    (hd : Base64.IsWritten text.toList data) {ms : List (String × Value)}
    (beside : ∀ m ∈ ms, StandsBeside m) {options : ImportOptions}
    (ho : ImportOptions.ofMembers ms = .ok options) (depth : Nat) :
    Gives reader (bytes ((carrying text (("format", .text format) :: ms)).chars layout depth))
      ⟨data, format, options⟩ := by
  obtain ⟨inner, hi, e⟩ :=
    Value.isObject_chars hl depth (("data", .text text) :: ("format", .text format) :: ms)
  rw [carrying, e]
  have third : Gathers readMember ⟨some data, some format, []⟩
      (ms.map (Entry.written hl (depth + 1))) ⟨some data, some format, ms.reverse⟩ := by
    have further := gathers_beside hl (depth + 1) beside ⟨some data, some format, []⟩
    rwa [List.append_nil] at further
  have second : Gathers readMember ⟨some data, none, []⟩
      ((("format", .text format) :: ms).map (Entry.written hl (depth + 1)))
      ⟨some data, some format, ms.reverse⟩ := by
    have value := (spellsText_chars format).text
    exact .cons (Entry.denotes_written hl _ "format" _) (fun _ hr => value.member _ hr) third
  have gathered : Gathers readMember {}
      ((("data", .text text) :: ("format", .text format) :: ms).map (Entry.written hl (depth + 1)))
      ⟨some data, some format, ms.reverse⟩ := by
    have value := (spellsText_chars text).data hd
    exact .cons (Entry.denotes_written hl _ "data" _) (fun _ hr => value.member _ hr) second
  have built : build ⟨some data, some format, ms.reverse⟩ = .ok ⟨data, format, options⟩ := by
    rw [build, List.reverse_reverse, ho]
    rfl
  refine ⟨⟨'\x7b', _, rfl, by decide⟩, fun space rest hs _ => ?_⟩
  simp only [List.cons_append, List.append_assoc, List.nil_append]
  refine (Reader.start_yields hs (by decide) _).bind ((Reader.advance_yields _ _).bind ?_)
  refine (Reader.members_gathers gathered hi rest).bind ?_
  exact (Yields.lift built _).bind ((Reader.advance_yields _ _).bind (.pure _ _))

/-- A request is read only if the text in the place of its data is the standard form of some. -/
theorem exists_isWritten (hl : layout.Valid) {text : String} {others : List (String × Value)}
    {depth : Nat} {r : ImportRequest} {t : Bytes}
    (h : Yields reader (bytes ((carrying text others).chars layout depth)) r t) :
    ∃ data, Base64.IsWritten text.toList data := by
  obtain ⟨inner, hi, e⟩ := Value.isObject_chars hl depth (("data", .text text) :: others)
  rw [carrying, e] at h
  have h := (Reader.advance_yields _ _).next
    ((Reader.start_yields (c := '\x7b') allSpace_nil (by decide) _).next h)
  obtain ⟨d, t', members, -⟩ := h.of_bind
  refine exists_isWritten_of_members (fun s d' t read => ?_) hl hi members
  rw [readMember, if_pos rfl] at read
  obtain ⟨⟨⟩, s', colon, member⟩ := read.of_bind
  obtain ⟨data, t', value, -⟩ := member.of_bind
  exact ⟨s', data, t', colon, value⟩

theorem standsBeside_text {name s : String} (notData : name ≠ "data")
    (notFormat : name ≠ "format") :
    StandsBeside (name, .text s) :=
  ⟨notData, notFormat, fun _ _ => (spellsText_chars s).value _⟩

theorem standsBeside_boolean {name : String} (notData : name ≠ "data")
    (notFormat : name ≠ "format")
    (b : Bool) : StandsBeside (name, .boolean b) :=
  ⟨notData, notFormat, fun _ _ => .value_boolean b _ _ _⟩

theorem standsBeside_natural {name : String} (notData : name ≠ "data")
    (notFormat : name ≠ "format")
    {n : Nat} (h : n < 2 ^ 64) : StandsBeside (name, .integer n) :=
  ⟨notData, notFormat, fun _ _ => by
    rw [Value.chars]
    exact .value_integer (by omega) (by omega) _⟩

theorem standsBeside_options (o : ImportOptions) : ∀ m ∈ o.toMembers, StandsBeside m := by
  intro m hm
  simp only [ImportOptions.toMembers, List.mem_cons, List.not_mem_nil, or_false] at hm
  rcases hm with rfl | rfl | rfl | rfl | rfl
  all_goals exact standsBeside_boolean (by decide) (by decide) _

theorem standsBeside_others (r : ExportResponse) :
    ∀ m ∈ r.others.tail, StandsBeside m := by
  have := r.memoCount.toNat_lt
  have := r.sizeBytes.toNat_lt
  simp only [ExportResponse.others, List.tail_cons, List.forall_mem_cons]
  exact ⟨standsBeside_text (by decide) (by decide),
    standsBeside_natural (by decide) (by decide) (by omega),
    standsBeside_natural (by decide) (by decide) (by omega), fun _ h => absurd h List.not_mem_nil⟩

/-- **A request for an import is read just if the text in the place of its data is the standard
form of some**, and these are its data. -/
theorem run_carrying_iff {r r' : ImportRequest} {text : String} {onLines : Bool} :
    Reader.run reader (Utf8.encode ((carrying text r.others).shown onLines)) = .ok r' ↔
      Base64.IsWritten text.toList r'.data ∧ r' = { r with data := r'.data } := by
  obtain ⟨layout, hl, written⟩ := Value.exists_layout onLines
  rw [written]
  have positive {data : Bytes} (hd : Base64.IsWritten text.toList data) :
      Reader.run reader (bytes ((carrying text r.others).chars layout 0)) =
        .ok { r with data } :=
    (gives hl hd (standsBeside_options r.options) r.options.ofMembers_toMembers 0).run_bytes
  refine eq_ok_iff_isWritten (fun data => { r with data }) (·.data) (fun _ => positive)
    (fun _ h => ?_) fun _ => rfl
  obtain ⟨_, read, -⟩ := Reader.yields_of_run h
  exact exists_isWritten hl read

/-- **A request for an import is read back.** -/
theorem run_shown (r : ImportRequest) (onLines : Bool) :
    Reader.run reader (Utf8.encode (r.toJson.shown onLines)) = .ok r := by
  rw [toJson_eq_carrying, run_carrying_iff, String.toList_ofList]
  exact ⟨Base64.isWritten_encode r.data, rfl⟩

/-- **The response of an export is a request for an import of its data.** -/
theorem run_response (r : ExportResponse) (onLines : Bool) :
    Reader.run reader (Utf8.encode (r.toJson.shown onLines)) =
      .ok { data := r.data, format := r.format } := by
  obtain ⟨layout, hl, written⟩ := Value.exists_layout onLines
  have hd : Base64.IsWritten (String.ofList (Base64.encode r.data)).toList r.data := by
    rw [String.toList_ofList]
    exact Base64.isWritten_encode r.data
  have unknown : ImportOptions.ofMembers r.others.tail = .ok {} :=
    ImportOptions.ofMembers_eq_default (by
      simp [ExportResponse.others, ImportOptions.switches])
  rw [written]
  exact (gives hl hd (standsBeside_others r) unknown 0).run_bytes

end ImportRequest

/-! ## All envelopes -/

/-- **Envelopes are read back and fit together.** A request or a response of an export and a
request for an import are read back from what is written of them. A text in the place of the data is
accepted just if it is the standard form of what is then read, wherever data are read. A response of
an export is read as a request for an import of the same data in the same format, with the options
that are in force when none is given. -/
theorem envelopes_round_trip (onLines : Bool) :
    (∀ r : ExportRequest,
      Reader.run ExportRequest.record.reader (Utf8.encode (r.toJson.shown onLines)) = .ok r) ∧
    (∀ r : ExportResponse,
      Reader.run ExportResponse.record.reader (Utf8.encode (r.toJson.shown onLines)) = .ok r) ∧
    (∀ r : ImportRequest,
      Reader.run ImportRequest.reader (Utf8.encode (r.toJson.shown onLines)) = .ok r) ∧
    (∀ (r r' : ExportResponse) (text : String),
      Reader.run ExportResponse.record.reader
          (Utf8.encode ((carrying text r.others).shown onLines)) = .ok r' ↔
        Base64.IsWritten text.toList r'.data ∧ r' = { r with data := r'.data }) ∧
    (∀ (r r' : ImportRequest) (text : String),
      Reader.run ImportRequest.reader
          (Utf8.encode ((carrying text r.others).shown onLines)) = .ok r' ↔
        Base64.IsWritten text.toList r'.data ∧ r' = { r with data := r'.data }) ∧
    (∀ s data t : Bytes, Yields dataReader s data t ↔
      ∃ text, Yields Reader.text s text t ∧ Base64.IsWritten text.toList data) ∧
    (∀ (text : List Char) (data : Bytes),
      Base64.IsWritten text data ↔ text = Base64.encode data) ∧
    ∀ r : ExportResponse,
      Reader.run ImportRequest.reader (Utf8.encode (r.toJson.shown onLines)) =
        .ok { data := r.data, format := r.format } :=
  ⟨fun r => r.run_shown onLines, fun r => r.run_shown onLines, fun r => r.run_shown onLines,
    fun _ _ _ => ExportResponse.run_carrying_iff, fun _ _ _ => ImportRequest.run_carrying_iff,
    fun _ _ _ => yields_dataReader_iff, fun _ _ => Base64.isWritten_iff,
    fun r => ImportRequest.run_response r onLines⟩

end MemoTransfer
