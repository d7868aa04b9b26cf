import MemoTransfer.Proofs.Transfer.Merge
import MemoTransfer.Proofs.Transfer.Serving

/-!
# What an import warns of

A record may be accepted and still lose something: a visibility that has no meaning becomes the
strictest one, and attachments and relations may be left behind by the reference importer. Each loss
is a warning of the response, and there are no other warnings (`importMemos_warns`): record by
record, first the visibility, then what the importer has said of the attachments, and then of the
relations.

The importer is called for the references that are wanted and for no others, and not before the memo
has been written (`Passage.RefersDuly`). What it answers is read off its calls, whatever it may be.
-/

namespace MemoTransfer

/-! ## Visibilities -/

namespace MemoRecord

/-- The visibility of the record is one of those that have a meaning. -/
def NamesVisibility (r : MemoRecord) : Prop := r.visibility ∈ ["PUBLIC", "PROTECTED", "PRIVATE"]

instance (r : MemoRecord) : Decidable r.NamesVisibility := inferInstanceAs (Decidable (_ ∈ _))

/-- The name of the visibility with which the record is stored. -/
def storedVisibility (r : MemoRecord) : String :=
  if r.NamesVisibility then r.visibility else "PRIVATE"

/-- The warning of a visibility without a meaning. -/
def visibilityWarnings (r : MemoRecord) : List String :=
  if r.NamesVisibility then []
  else ["Unknown visibility " ++ r.visibility ++ " for memo " ++ r.uid ++ ", defaulting to PRIVATE"]

theorem namesVisibility_iff (r : MemoRecord) :
    r.NamesVisibility ↔ ∃ v : Visibility, v.name = r.visibility := by
  constructor
  · intro listed
    simp only [NamesVisibility, List.mem_cons, List.not_mem_nil, or_false] at listed
    rcases listed with h | h | h
    · exact ⟨.everyone, h.symm⟩
    · exact ⟨.members, h.symm⟩
    · exact ⟨.ownerOnly, h.symm⟩
  · rintro ⟨v, named⟩
    rw [NamesVisibility, ← named]
    cases v <;> decide

/-- The visibility that is written, and what is said of it. -/
theorem knownVisibility_eq (r : MemoRecord) : r.knownVisibility.1.name = r.storedVisibility ∧
    r.knownVisibility.2 = r.visibilityWarnings := by
  unfold knownVisibility storedVisibility visibilityWarnings
  cases known : Visibility.ofName? r.visibility with
  | none =>
    have unnamed : ¬r.NamesVisibility := by
      rw [namesVisibility_iff]
      rintro ⟨v, named⟩
      rw [← named, Visibility.ofName?_name] at known
      cases known
    rw [if_neg unnamed, if_neg unnamed]
    exact ⟨rfl, rfl⟩
  | some v =>
    have named := Visibility.name_of_ofName? known
    have listed : r.NamesVisibility := r.namesVisibility_iff.2 ⟨v, named⟩
    rw [if_pos listed, if_pos listed]
    exact ⟨named, rfl⟩

/-- Tables that have answered these calls hold the memo of the record with its visibility, or as
`PRIVATE` if that has no meaning. -/
def IsStoredBy (r : MemoRecord) (calls : List Call) : Prop :=
  ∀ s t : Store, s.WellFormed → s.Serves calls t →
    ∃ row, t.rowByUid? r.uid = some row ∧ row.visibility = r.storedVisibility

end MemoRecord

/-! ## What calls tell -/

namespace Call

/-- The name of the visibility with which the call writes a memo. -/
def visibility? : Call → Option String
  | createMemo memo _ => some memo.visibility.name
  | updateMemo patch _ => patch.visibility.map Visibility.name
  | _ => none

/-- What the importer says if it brings nothing in. -/
def message? : Call → Option String
  | importAttachments _ _ (.notImported message) => some message
  | importRelations _ _ (.notImported message) => some message
  | _ => none

/-- The number of attachments that the call has brought in. -/
def attachmentsImported : Call → ℕ
  | importAttachments _ _ (.imported n) => n.toNat
  | _ => 0

/-- The number of relations that the call has brought in. -/
def relationsImported : Call → ℕ
  | importRelations _ _ (.imported n) => n.toNat
  | _ => 0

end Call

/-- The calls are those that references of one kind need: none if there are no references or they
are to be skipped, and else a single one. -/
def AsksFor {α : Type} (skip : Bool) (refs : List α) (call : ReferenceResult → Call)
    (calls : List Call) : Prop :=
  if skip = false ∧ refs ≠ [] then ∃ answer, calls = [call answer] else calls = []

section

variable {α : Type} {skip : Bool} {refs : List α} {call : ReferenceResult → Call}
  {arrivals : Arrivals} {calls : List Call}

theorem Brought.asksFor (h : Brought skip refs call arrivals calls) :
    AsksFor skip refs call calls := by
  unfold AsksFor
  cases h with
  | nothing idle =>
    have unwanted : ¬(skip = false ∧ refs ≠ []) := by
      rintro ⟨taken, some⟩
      simp [taken, some] at idle
    rw [if_neg unwanted]
  | asked wanted answer =>
    have wanted' : skip = false ∧ refs ≠ [] := by simpa using wanted
    rw [if_pos wanted']
    exact ⟨answer, rfl⟩

/-- The message of the importer is the warning. -/
theorem Brought.warnings (h : Brought skip refs call arrivals calls)
    (refused : ∀ message, (call (.notImported message)).message? = some message)
    (done : ∀ n, (call (.imported n)).message? = none) :
    calls.filterMap Call.message? = arrivals.warnings := by
  cases h with
  | nothing _ => rfl
  | asked _ answer =>
    cases answer with
    | imported n => rw [List.filterMap_cons_none (done n)]; rfl
    | notImported message => rw [List.filterMap_cons_some (refused message)]; rfl

/-- What is brought in is what the calls of its kind tell. -/
theorem Brought.sum_eq (h : Brought skip refs call arrivals calls) {f : Call → ℕ}
    (tells : ∀ answer, f (call answer) = (Arrivals.ofAnswer answer).count.toNat) :
    (calls.map f).sum = arrivals.count.toNat := by
  cases h with
  | nothing _ => rfl
  | asked _ answer => simp [tells]

/-- Calls of another kind tell nothing. -/
theorem Brought.sum_eq_zero (h : Brought skip refs call arrivals calls) {f : Call → ℕ}
    (silent : ∀ answer, f (call answer) = 0) : (calls.map f).sum = 0 := by
  cases h with
  | nothing _ => rfl
  | asked _ answer => simp [silent]

end

/-! ## The course of a record -/

section

variable {r : MemoRecord} {owner : UserId} {options : ImportOptions} {now : Int}
  {found : Option Memo} {x : Except Error (Option Memo)} {d : Except Error Disposition}
  {call : Call} {calls : List Call} {y : Except Error (Imported × List String)}

theorem Examined.isReference_eq_false (h : Examined r options x calls) :
    ∀ c ∈ calls, c.isReference = false := by
  cases h <;> simp [Call.isReference]

theorem Written.isReference_eq_false (h : Written r owner options now found d call) :
    call.isReference = false := by
  cases h <;> rfl

/-- A call that writes a record gives it its visibility, or `PRIVATE`. -/
theorem Written.visibility?_eq (h : Written r owner options now found d call) :
    call.visibility? = some r.storedVisibility := by
  rw [← r.knownVisibility_eq.1]
  cases h <;> rfl

/-- A call that is not one of the importer has no message and brings nothing in. -/
theorem Call.tells_nothing {c : Call} (h : c.isReference = false) :
    c.message? = none ∧ c.attachmentsImported = 0 ∧ c.relationsImported = 0 := by
  cases c with
  | importAttachments | importRelations => cases h
  | _ => exact ⟨rfl, rfl, rfl⟩

/-- Calls without one of the importer have no messages and bring nothing in. -/
theorem Call.all_tell_nothing (h : ∀ c ∈ calls, c.isReference = false) :
    calls.filterMap message? = [] ∧ (calls.map attachmentsImported).sum = 0 ∧
      (calls.map relationsImported).sum = 0 := by
  refine ⟨List.filterMap_eq_nil_iff.2 fun c hc => (tells_nothing (h c hc)).1, ?_, ?_⟩
  · rw [List.sum_eq_zero]
    simpa using fun c hc => (tells_nothing (h c hc)).2.1
  · rw [List.sum_eq_zero]
    simpa using fun c hc => (tells_nothing (h c hc)).2.2

/-- Tables that have let a record be written have found the memo that they hold, and have not
changed before. -/
theorem Examined.answers_of_serves {s t : Store} (h : Examined r options (.ok found) calls)
    (hs : s.WellFormed) (served : s.Serves (calls ++ [call]) t) :
    found = (s.rowByUid? r.uid).map MemoRow.memo ∧ s.Answers call t := by
  cases h with
  | fit found limit short free =>
    obtain _ | ⟨looked, served⟩ := served
    obtain ⟨found_eq, rfl⟩ := looked.getMemo_answer
    rw [Store.getMemo_byUid hs, Except.ok.injEq] at found_eq
    obtain _ | ⟨asked, served⟩ := served
    obtain rfl := asked.contentLimit_answer
    obtain _ | ⟨done, served⟩ := served
    cases served
    exact ⟨found_eq, done⟩

/-- **A record that is written is stored with its visibility**, or as `PRIVATE`. -/
theorem Written.isStoredBy {d : Disposition}
    (written : Written r owner options now found (.ok d) call)
    (examined : Examined r options (.ok found) calls) : r.IsStoredBy (calls ++ [call]) := by
  intro s t hs served
  obtain ⟨found_eq, answered⟩ := examined.answers_of_serves hs served
  rw [← r.knownVisibility_eq.1]
  cases written with
  | created memo =>
    cases answered.effect with
    | created free =>
      have same : (r.toMemo owner options now).uid = r.uid := rfl
      have stored := s.rowByUid?_withRow (r.toMemo owner options now) r.uid
      rw [← same, free, if_pos rfl, Option.none_or] at stored
      exact ⟨_, stored, rfl⟩
    | kept quiet => cases quiet
  | updated memo =>
    obtain ⟨row, stored, rfl⟩ := Option.map_eq_some_iff.1 found_eq.symm
    have here : s.hasMemo row.id = true :=
      List.any_eq_true.2 ⟨row, (Store.mem_of_rowByUid? stored).1, decide_eq_true rfl⟩
    have done := answered.updateMemo_answer
    rw [Store.updateMemo_eq rfl here] at done
    cases done
    have patched := s.rowByUid?_withPatch (r.toPatch row.id options) r.uid
    have same : row.id = (r.toPatch row.id options).id := rfl
    rw [stored, Option.map_some, if_pos same] at patched
    exact ⟨_, patched, rfl⟩

/-- The importer is not called for a record that is rejected. -/
theorem Course.quiet_of_error {e : Error} (h : Course r owner options now (.error e) calls) :
    ∀ c ∈ calls, c.isReference = false := by
  cases h with
  | refused examined => exact examined.isReference_eq_false
  | failed real examined written =>
    exact List.forall_mem_append.2 ⟨examined.isReference_eq_false,
      List.forall_mem_singleton.2 written.isReference_eq_false⟩

/-- The importer is not called in a dry run. -/
theorem Course.quiet_of_dry (h : Course r owner options now y calls)
    (dry : options.validateOnly = true) : ∀ c ∈ calls, c.isReference = false := by
  cases h with
  | refused examined => exact examined.isReference_eq_false
  | validated dry examined => exact examined.isReference_eq_false
  | failed real => simp [dry] at real
  | done real => simp [dry] at real

/-- **What is reported of an accepted record is what its calls tell.** -/
theorem Course.tells {imported : Imported} {messages : List String}
    (h : Course r owner options now (.ok (imported, messages)) calls) :
    messages = r.visibilityWarnings ++ calls.filterMap Call.message? ∧
      imported.attachments.toNat = (calls.map Call.attachmentsImported).sum ∧
      imported.relations.toNat = (calls.map Call.relationsImported).sum := by
  rw [← r.knownVisibility_eq.2]
  cases h with
  | validated dry examined =>
    obtain ⟨silent, still, still'⟩ := Call.all_tell_nothing examined.isReference_eq_false
    rw [silent, still, still', List.append_nil]
    exact ⟨rfl, rfl, rfl⟩
  | @done found calls first second d call attachments relations real examined written attached
      related =>
    have before := Call.all_tell_nothing examined.isReference_eq_false
    have writing := Call.tells_nothing written.isReference_eq_false
    have said := attached.warnings (fun _ => rfl) fun _ => rfl
    have said' := related.warnings (fun _ => rfl) fun _ => rfl
    have came : (first.map Call.attachmentsImported).sum = attachments.count.toNat :=
      attached.sum_eq fun answer => by cases answer <;> rfl
    have came' : (second.map Call.relationsImported).sum = relations.count.toNat :=
      related.sum_eq fun answer => by cases answer <;> rfl
    have other : (second.map Call.attachmentsImported).sum = 0 := related.sum_eq_zero fun _ => rfl
    have other' : (first.map Call.relationsImported).sum = 0 := attached.sum_eq_zero fun _ => rfl
    refine ⟨?_, ?_, ?_⟩
    · rw [List.filterMap_append, before.1, List.filterMap_cons_none writing.1,
        List.filterMap_append, said, said', List.nil_append, List.append_assoc]
    · simp [before.2.1, writing.2.1, came, other]
    · simp [before.2.2, writing.2.2, came', other']

/-- **An accepted record is written before the importer is called.** -/
theorem Course.exists_order {result : Imported × List String}
    (h : Course r owner options now (.ok result) calls) (real : options.validateOnly = false) :
    ∃ lookups write attachments relations,
      calls = lookups ++ write :: (attachments ++ relations) ∧
      (∀ c ∈ lookups, c.isWrite = false ∧ c.isReference = false) ∧
      (write.hasCreated = true ∨ write.hasUpdated = true) ∧
      write.visibility? = some r.storedVisibility ∧ r.IsStoredBy (lookups ++ [write]) ∧
      AsksFor options.skipAttachments r.attachments
        (.importAttachments r.uid r.attachments) attachments ∧
      AsksFor options.skipRelations r.relations (.importRelations r.uid r.relations) relations := by
  cases h with
  | validated dry _ =>
    rw [real] at dry
    cases dry
  | @done found calls first second d call attachments relations _ examined written attached
      related =>
    have done : call.hasCreated = true ∨ call.hasUpdated = true := by
      cases written with
      | created memo => exact .inl rfl
      | updated memo => exact .inr rfl
    exact ⟨calls, call, first, second, rfl,
      fun c hc => ⟨examined.isWrite_eq_false c hc, examined.isReference_eq_false c hc⟩, done,
      written.visibility?_eq, written.isStoredBy examined, attached.asksFor, related.asksFor⟩

end

/-! ## Passages -/

namespace Passage

/-- What is to be said of a record: nothing if it was rejected, and else what has been lost. -/
def warnings (p : Passage) : List String :=
  if p.rejected then [] else p.record.visibilityWarnings ++ p.calls.filterMap Call.message?

/-- The importer is called for what a record refers to, and not otherwise. -/
structure RefersDuly (p : Passage) (options : ImportOptions) : Prop where
  /-- It is not called for a record that is rejected, nor in a dry run. -/
  idle : p.rejected = true ∨ options.validateOnly = true → ∀ c ∈ p.calls, c.isReference = false
  /-- Every other record is written, and then its attachments are handed over, and then its
  relations. -/
  orderly : p.rejected = false → options.validateOnly = false →
    ∃ lookups write attachments relations,
      p.calls = lookups ++ write :: (attachments ++ relations) ∧
      (∀ c ∈ lookups, c.isWrite = false ∧ c.isReference = false) ∧
      (write.hasCreated = true ∨ write.hasUpdated = true) ∧
      write.visibility? = some p.record.storedVisibility ∧
      p.record.IsStoredBy (lookups ++ [write]) ∧
      AsksFor options.skipAttachments p.record.attachments
        (.importAttachments p.record.uid p.record.attachments) attachments ∧
      AsksFor options.skipRelations p.record.relations
        (.importRelations p.record.uid p.record.relations) relations

variable {p : Passage} {owner : UserId} {options : ImportOptions} {now : Int}

theorem Follows.refersDuly (h : p.Follows owner options now) : p.RefersDuly options := by
  obtain ⟨x, verdict, course⟩ := h
  cases x with
  | error e =>
    refine ⟨fun _ => course.quiet_of_error, fun accepted => ?_⟩
    simp [rejected, verdict, Except.mapError] at accepted
  | ok result =>
    refine ⟨?_, fun _ => course.exists_order⟩
    rintro (rejected' | dry)
    · simp [rejected, verdict, Except.mapError] at rejected'
    · exact course.quiet_of_dry dry

/-- What the verdicts on records tell, their calls tell. -/
theorem told_eq {passages : List Passage} (h : ∀ p ∈ passages, p.Follows owner options now) :
    let accepted := (passages.map verdict).filterMap Except.toOption
    accepted.flatMap (·.2) = passages.flatMap warnings ∧
      (accepted.map (·.1.attachments.toNat)).sum =
        ((passages.flatMap calls).map Call.attachmentsImported).sum ∧
      (accepted.map (·.1.relations.toNat)).sum =
        ((passages.flatMap calls).map Call.relationsImported).sum := by
  induction passages with
  | nil => exact ⟨rfl, rfl, rfl⟩
  | cons p passages ih =>
    rw [List.forall_mem_cons] at h
    obtain ⟨messages, attachments, relations⟩ := ih h.2
    obtain ⟨x, verdict', course⟩ := h.1
    simp only [List.map_cons, List.flatMap_cons, List.map_append, List.sum_append]
    cases x with
    | error e =>
      obtain ⟨-, still, still'⟩ := Call.all_tell_nothing course.quiet_of_error
      have rejected' : p.rejected = true := by simp [rejected, verdict', Except.mapError]
      rw [List.filterMap_cons_none (by rw [verdict']; rfl), warnings, if_pos rejected', still,
        still', List.nil_append, Nat.zero_add, Nat.zero_add]
      exact ⟨messages, attachments, relations⟩
    | ok result =>
      obtain ⟨said, came, came'⟩ := course.tells
      have accepted : p.rejected = false := by simp [rejected, verdict', Except.mapError]
      rw [List.filterMap_cons_some (by rw [verdict']; rfl), warnings, accepted, ← came, ← came',
        if_neg Bool.false_ne_true, ← said, ← messages, ← attachments, ← relations]
      exact ⟨rfl, rfl, rfl⟩

end Passage

/-! ## The response -/

/-- What a response says of the losses of passages, and of what the importer has brought in. -/
structure ImportResponse.WarnsOf (response : ImportResponse) (passages : List Passage) : Prop where
  /-- The warnings of the accepted records, in the order of the snapshot. -/
  warnings : response.warnings = passages.flatMap Passage.warnings
  /-- The attachments that the importer has brought in. -/
  attachments : ((passages.flatMap Passage.calls).map Call.attachmentsImported).sum < 2 ^ 32 →
    response.attachmentsImported.toNat =
      ((passages.flatMap Passage.calls).map Call.attachmentsImported).sum
  /-- The relations that it has brought in. -/
  relations : ((passages.flatMap Passage.calls).map Call.relationsImported).sum < 2 ^ 32 →
    response.relationsImported.toNat =
      ((passages.flatMap Passage.calls).map Call.relationsImported).sum

theorem ImportReport.warnsOf {passages : List Passage} {owner : UserId} {options : ImportOptions}
    {now : Int} (follows : ∀ p ∈ passages, p.Follows owner options now) (validateOnly : Bool)
    (elapsed : Nat) :
    ((ImportReport.mk (passages.map Passage.verdict) validateOnly).response elapsed).WarnsOf
      passages := by
  obtain ⟨messages, attachments, relations⟩ := Passage.told_eq follows
  have response := (ImportReport.mk (passages.map Passage.verdict) validateOnly).response_eq elapsed
  dsimp only at response
  rw [response]
  constructor
  · exact messages
  · intro few
    dsimp only
    rw [attachments, UInt32.toNat_ofNat_of_lt' few]
  · intro few
    dsimp only
    rw [relations, UInt32.toNat_ofNat_of_lt' few]

/-- **Every loss is reported**, once and in order. Whatever the store and the reference importer
answer, the import of a snapshot consists of one passage for each record, the importer is called
duly in each of them, and the warnings of the response are those of the passages. -/
theorem importMemos_warns {σ : Type} (store : MemoStore (StateM σ))
    (references : ReferenceImporter (StateM σ)) (user : User) {request : ImportRequest}
    {snapshot : Snapshot} (brought : request.snapshot = .ok snapshot) (now : Int) (s : σ) :
    ∃ report t, ∃ passages : List Passage,
      Noted (importMemos store (.ok user) request references now)
        (importMemos store.watched (.ok user) request references.watched now) s (.ok report) t
        (passages.flatMap Passage.calls) ∧
      passages.map Passage.record = snapshot.records ∧
      passages.map Passage.verdict = report.verdicts ∧
      (∀ p ∈ passages, p.RefersDuly request.options) ∧
      ∀ elapsed, (report.response elapsed).WarnsOf passages := by
  obtain ⟨passages, t, noted, records, follows⟩ :=
    importMemos_noted store references user brought now s
  exact ⟨_, t, passages, noted, records, rfl, fun p hp => (follows p hp).refersDuly,
    fun elapsed => ImportReport.warnsOf follows _ elapsed⟩

/-- A snapshot whose first record loses all that can be lost, whose second one is rejected because
of the first, and whose third one has relations. -/
def losing : Snapshot := .ofRecords .epoch
  [⟨"a", "one", "SECRET", true, .epoch, .epoch, none, [], none, [⟨"f", "f.png", "image/png", 1⟩],
      [⟨"b", "REFERENCE"⟩]⟩,
    ⟨"a", "two", "SECRET", true, .epoch, .epoch, none, [], none, [], [⟨"b", "REFERENCE"⟩]⟩,
    ⟨"b", "three", "PUBLIC", true, .epoch, .epoch, none, [], none, [], [⟨"a", "COMMENT"⟩]⟩]

theorem importMemos_warns_losing : ∃ report t, ∃ passages : List Passage,
    Ends (importMemos Store.memoStore (.ok ⟨1, "alice"⟩) ⟨losing.encode, "", {}⟩ .deferred 60)
        Store.lone (.ok report) t ∧
      passages.map Passage.record = losing.records ∧ (∀ p ∈ passages, p.RefersDuly {}) ∧
      passages.flatMap Passage.warnings =
        ["Unknown visibility SECRET for memo a, defaulting to PRIVATE",
          "Attachments for memo a were skipped (attachment import not yet implemented)",
          "Relations for memo a were skipped (relation import not yet implemented)",
          "Relations for memo b were skipped (relation import not yet implemented)"] := by
  have keys : Store.lone.WellFormed := Store.WellFormed.empty.of_memos rfl rfl
  have known : Store.lone.user? "alice" = some ⟨1, "alice"⟩ := rfl
  have finite : losing.IsFinite := by decide
  have brought : (ImportRequest.mk losing.encode "" {}).snapshot = .ok losing :=
    ImportRequest.snapshot_encode finite "" {}
  obtain ⟨report, t, passages, noted, records, -, duly, warns⟩ :=
    importMemos_warns Store.memoStore .deferred ⟨1, "alice"⟩ brought 60 Store.lone
  have told : Except.ok report =
      (.ok ⟨Store.lone.verdicts 1 {} 60 losing.records, false⟩ : Except Error ImportReport) :=
    congrArg Prod.fst (noted.plain.symm.trans (Store.importAs_eq keys known brought 60))
  cases told
  refine ⟨_, t, passages, noted.plain, records, duly, ?_⟩
  rw [← (warns 0).warnings]
  decide +kernel

end MemoTransfer
