import MemoTransfer.Proofs.Transfer.Merge
import MemoTransfer.Proofs.Transfer.Serving
import MemoTransfer.Proofs.Transfer.Splitting

/-!
# Imports that race

Two callers import into one store at the same time: either may make its next call, in any order
(`Race.run`). Whatever the order is, what has happened is a sequence of calls that the store has
served, and the calls of each caller in it are those that its script has made (`Race.Past`). So the
memos that are added are the ones that the imports report as created, no two memos have the same
text key, and without leave to overwrite a record whose memo the other import has made first is
rejected, and nothing is lost (`Race.between_fair`).

An import that is left alone does what it does without a race (`Race.between_alone`).
-/

namespace MemoTransfer

/-! ## Races -/

/-- One of two callers. -/
inductive Side
  | left
  | right
  deriving DecidableEq

namespace Side

/-- The other caller. -/
def other : Side → Side
  | left => right
  | right => left

theorem not_eq_iff (x side : Side) : (!decide (x = side)) = decide (x = side.other) := by
  cases x <;> cases side <;> rfl

end Side

/-- The next call of a script is answered by the store, and what references it has are left behind.
A script that is done makes no call. -/
def Script.step {α : Type} (s : Store) : Script α → Script α × Store
  | done a => (done a, s)
  | call d next =>
    let (x, t) := (d.ask Store.memoStore .deferred).run s
    (next x, t)

/-- The script makes no more calls. -/
def Script.IsDone {α : Type} : Script α → Prop
  | done _ => True
  | call _ _ => False

instance {α : Type} (p : Script α) : Decidable p.IsDone :=
  match p with
  | .done _ => inferInstanceAs (Decidable True)
  | .call _ _ => inferInstanceAs (Decidable False)

theorem Script.IsDone.exists_eq {α : Type} {p : Script α} (h : p.IsDone) : ∃ a, p = done a := by
  cases p with
  | done a => exact ⟨a, rfl⟩
  | call d next => exact h.elim

/-- A store, and what its two callers are still to do with it. -/
structure Race where
  store : Store
  scripts : Side → Script (Except Error ImportReport)

namespace Race

/-- A caller makes its next call. -/
def move (c : Race) (side : Side) : Race where
  store := ((c.scripts side).step c.store).2
  scripts := Function.update c.scripts side ((c.scripts side).step c.store).1

/-- The callers make their calls in this order. -/
def run (c : Race) (schedule : List Side) : Race := schedule.foldl move c

/-- Both callers have done what they had to do. -/
def IsOver (c : Race) : Prop := (c.scripts .left).IsDone ∧ (c.scripts .right).IsDone

instance (c : Race) : Decidable c.IsOver := inferInstanceAs (Decidable (_ ∧ _))

theorem IsOver.exists_results {c : Race} (h : c.IsOver) :
    ∃ results : Side → Except Error ImportReport,
      ∀ side, c.scripts side = .done (results side) := by
  have each (side : Side) : ∃ result, c.scripts side = .done result := by
    cases side with
    | left => exact h.1.exists_eq
    | right => exact h.2.exists_eq
  exact Classical.skolem.1 each

variable {c c' : Race} {side : Side}

theorem run_append (c : Race) (schedule more : List Side) :
    c.run (schedule ++ more) = (c.run schedule).run more :=
  List.foldl_append

theorem move_of_done {result : Except Error ImportReport} (h : c.scripts side = .done result) :
    c.move side = c := by
  rw [move, h, Script.step, ← h, Function.update_eq_self]

theorem move_of_call {d : Demand} {next : d.Response → Script (Except Error ImportReport)}
    (h : c.scripts side = .call d next) :
    c.move side = ⟨((d.ask Store.memoStore .deferred).run c.store).2,
      Function.update c.scripts side (next ((d.ask Store.memoStore .deferred).run c.store).1)⟩ := by
  rw [move, h]
  rfl

/-! ## One caller alone -/

/-- The store answers the calls of a script one after another. -/
def alone (s : Store) (script : Script (Except Error ImportReport)) :
    Except Error ImportReport × Store :=
  (script.interpret (·.ask Store.memoStore .deferred)).run s

/-- **A caller that is left alone carries its script out.** -/
theorem run_replicate (c : Race) (side : Side) : ∃ n, c.run (List.replicate n side) =
    ⟨(alone c.store (c.scripts side)).2,
      Function.update c.scripts side (.done (alone c.store (c.scripts side)).1)⟩ := by
  generalize h : c.scripts side = script
  induction script generalizing c with
  | done result =>
    refine ⟨0, ?_⟩
    show c = ⟨c.store, Function.update c.scripts side (.done result)⟩
    rw [← h, Function.update_eq_self]
  | call d next ih =>
    have further : (c.move side).scripts side =
        next ((d.ask Store.memoStore .deferred).run c.store).1 := by
      rw [move_of_call h]
      exact Function.update_self ..
    obtain ⟨n, e⟩ := ih _ (c.move side) further
    refine ⟨n + 1, ?_⟩
    show (c.move side).run (List.replicate n side) = _
    rw [e, move_of_call h, Function.update_idem]
    rfl

/-- A race can be finished at any time. -/
theorem exists_isOver (c : Race) : ∃ more, (c.run more).IsOver := by
  obtain ⟨n, first⟩ := c.run_replicate .left
  obtain ⟨k, second⟩ := (c.run (List.replicate n .left)).run_replicate .right
  refine ⟨List.replicate n .left ++ List.replicate k .right, ?_⟩
  rw [run_append, second, first]
  exact ⟨trivial, trivial⟩

/-! ## What has happened -/

/-- The calls of one caller. -/
def callsOf (side : Side) (history : List (Side × Call)) : List Call :=
  (history.filter (·.1 = side)).map Prod.snd

theorem perm_callsOf (side : Side) (history : List (Side × Call)) :
    (callsOf side history ++ callsOf side.other history).Perm (history.map Prod.snd) := by
  have others : history.filter (·.1 = side.other) =
      history.filter fun x => !decide (x.1 = side) := by
    refine List.filter_congr fun x _ => ?_
    rw [Side.not_eq_iff]
  rw [callsOf, callsOf, others, ← List.map_append]
  exact (List.filter_append_perm _ history).map _

/-- These calls have led from the one to the other. -/
structure Past (c c' : Race) (history : List (Side × Call)) : Prop where
  store : c.store.Serves (history.map Prod.snd) c'.store
  scripts : ∀ side, (c.scripts side).Leads (callsOf side history) (c'.scripts side)

theorem Past.refl (c : Race) : c.Past c [] := ⟨.refl _, fun _ => .refl _⟩

/-- One more call at the beginning. -/
theorem Past.call {history : List (Side × Call)} {d : Demand}
    {next : d.Response → Script (Except Error ImportReport)} (h : c.scripts side = .call d next)
    (past : (c.move side).Past c' history) :
    c.Past c' ((side, d.noted ((d.ask Store.memoStore .deferred).run c.store).1) :: history) := by
  rw [move_of_call h] at past
  refine ⟨.call (.ask d) past.store, fun side' => ?_⟩
  have later := past.scripts side'
  dsimp only at later
  by_cases same : side' = side
  · subst same
    rw [Function.update_self] at later
    rw [h, callsOf, List.filter_cons_of_pos (by simp)]
    exact .call later
  · rw [Function.update_of_ne same] at later
    rw [callsOf, List.filter_cons_of_neg (by simpa using Ne.symm same)]
    exact later

/-- **What has happened in a race** is that the store has served the calls of the scripts. -/
theorem exists_past (c : Race) (schedule : List Side) :
    ∃ history, c.Past (c.run schedule) history := by
  induction schedule generalizing c with
  | nil => exact ⟨[], .refl c⟩
  | cons side schedule ih =>
    obtain ⟨history, past⟩ := ih (c.move side)
    cases h : c.scripts side with
    | done result =>
      rw [move_of_done h] at past
      refine ⟨history, ?_⟩
      show c.Past ((c.move side).run schedule) history
      rw [move_of_done h]
      exact past
    | call d next => exact ⟨_, past.call h⟩

end Race

/-! ## Records that are created -/

namespace Passage

/-- The memos that were created, as they were given to the store. -/
def createdMemos (owner : UserId) (options : ImportOptions) (now : Int) (passages : List Passage) :
    List Memo :=
  (passages.filter created).map fun p => p.record.toMemo owner options now

/-- The text keys of the records that were created. -/
def createdUids (passages : List Passage) : List String :=
  (passages.filter created).map fun p => p.record.uid

variable {owner : UserId} {options : ImportOptions} {now : Int} {passages : List Passage}

theorem map_uid_createdMemos (owner : UserId) (options : ImportOptions) (now : Int)
    (passages : List Passage) :
    (createdMemos owner options now passages).map (·.uid) = createdUids passages := by
  rw [createdMemos, List.map_map]
  rfl

/-- The calls of passages have created these memos. -/
theorem createdMemos_eq (h : ∀ p ∈ passages, p.Follows owner options now) :
    (passages.flatMap calls).filterMap Call.createdMemo? =
      createdMemos owner options now passages := by
  induction passages with
  | nil => rfl
  | cons p passages ih =>
    rw [List.forall_mem_cons] at h
    rw [List.flatMap_cons, List.filterMap_append, h.1.createdMemos, ih h.2, createdMemos,
      createdMemos, List.filter_cons]
    cases p.created <;> rfl

/-- If no text key is created twice, one of the records is the only one that was created under its
text key. -/
theorem created_eq_false_of_nodup {before after rest : List Passage} {p : Passage}
    (distinct : (createdUids (before ++ p :: after) ++ createdUids rest).Nodup)
    (made : p.created = true) :
    ∀ q ∈ before ++ after ++ rest, q.record.uid = p.record.uid → q.created = false := by
  have first : (createdUids (before ++ p :: after) ++ createdUids rest).Perm
      (p.record.uid :: createdUids (before ++ after ++ rest)) := by
    have perm : (before ++ p :: after ++ rest).Perm (p :: (before ++ after ++ rest)) :=
      List.perm_middle.append_right rest
    have chosen := (perm.filter created).map fun p => p.record.uid
    rw [List.filter_cons_of_pos made, List.filter_append, List.map_append] at chosen
    exact chosen
  have alone := (List.nodup_cons.1 (first.nodup_iff.1 distinct)).1
  intro q hq same
  by_contra again
  have made' : q.created = true := by simpa using again
  exact alone (same ▸ List.mem_map_of_mem (List.mem_filter.2 ⟨hq, made'⟩))

end Passage

/-- A record is created, updated or rejected, and only one of these. -/
theorem Verdict.counted_once {v : Verdict} (concerned : v.disposition? = some .created ∨
      v.disposition? = some .updated ∨ ∃ rejection, v = .error rejection) :
    [v].countP (·.disposition? = some .created) + [v].countP (·.disposition? = some .updated) +
      ([v].filterMap Verdict.rejection?).length = 1 := by
  cases v with
  | error rejection => rfl
  | ok x =>
    have accepted : [(.ok x : Verdict)].filterMap Verdict.rejection? = [] := rfl
    rcases concerned with created | updated | ⟨_, rejected⟩
    · simp [accepted, created]
    · simp [accepted, updated]
    · cases rejected

/-! ## Two imports -/

/-- An import that is about to run: of a snapshot, for a known user, and not a dry run. -/
structure Store.Entrant (s : Store) where
  username : String
  user : User
  known : s.user? username = some user
  request : ImportRequest
  snapshot : Snapshot
  brought : request.snapshot = .ok snapshot
  real : request.options.validateOnly = false
  now : Int

/-- The row holds the record as a new memo. -/
def Store.Entrant.Fills {s : Store} (e : s.Entrant) (r : MemoRecord) (row : MemoRow) : Prop :=
  row.memo = {
    id := row.id
    uid := r.uid
    creatorId := e.user.id
    rowStatus := .normal
    content := r.content
    visibility := (Visibility.ofName? r.visibility).getD .ownerOnly
    pinned := r.pinned
    payload := .ofContent r.content r.location
    createdTs := if e.request.options.preserveTimestamps then r.createdAt.seconds else e.now
    updatedTs := if e.request.options.preserveTimestamps then r.updatedAt.seconds else e.now
    displayTs := r.displayTime.map Calendar.Instant.seconds }

namespace Race

variable {s : Store}

/-- Two imports at the start. -/
def between (entrants : Side → s.Entrant) : Race where
  store := s
  scripts side := Script.ofImport (s.session (entrants side).username) (entrants side).request
    (entrants side).now

theorem scripts_between (entrants : Side → s.Entrant) (side : Side) :
    (between entrants).scripts side =
      Script.ofImport (.ok (entrants side).user) (entrants side).request (entrants side).now := by
  rw [← Store.session_eq (entrants side).known]
  rfl

/-- What is left to do once the snapshots have been read. -/
def ofRecords (entrants : Side → s.Entrant) : Race where
  store := s
  scripts side :=
    let verdicts := (entrants side).snapshot.records.mapM fun r => ExceptT.lift
      (reconcile (.answering Script.ask) (entrants side).user.id (entrants side).request.options
        (.answering Script.ask) (entrants side).now r)
    (verdicts >>= fun v => pure ⟨v, false⟩ : ExceptT Error Script ImportReport).run

theorem between_eq_ofRecords (entrants : Side → s.Entrant) :
    between entrants = ofRecords entrants := by
  have scripts : (between entrants).scripts = (ofRecords entrants).scripts := by
    funext side
    rw [scripts_between, Script.ofImport, importAnswering, importMemos, (entrants side).brought,
      (entrants side).real]
    rfl
  exact congrArg (Race.mk s) scripts

/-- **An import that is left alone does what it does without a race.** -/
theorem between_alone (entrants : Side → s.Entrant) (side : Side) :
    ∃ n, (between entrants).run (List.replicate n side) =
      let alone := s.importAs (entrants side).username (entrants side).request (entrants side).now
      ⟨alone.2, Function.update (between entrants).scripts side (.done alone.1)⟩ := by
  obtain ⟨n, e⟩ := (between entrants).run_replicate side
  have imported : alone (between entrants).store ((between entrants).scripts side) =
      s.importAs (entrants side).username (entrants side).request (entrants side).now := by
    rw [alone, between, Script.interpret_ofImport]
    rfl
  rw [imported] at e
  exact ⟨n, e⟩

/-- What has become of the records of each import. -/
structure Told (entrants : Side → s.Entrant) (history : List (Side × Call))
    (passages : Side → List Passage) : Prop where
  calls : ∀ side, callsOf side history = (passages side).flatMap Passage.calls
  records : ∀ side, (passages side).map Passage.record = (entrants side).snapshot.records
  follows : ∀ side, ∀ p ∈ passages side, p.Follows (entrants side).user.id
    (entrants side).request.options (entrants side).now

/-- The report on passages of an import that is not a dry run. -/
def reportOf (passages : List Passage) : ImportReport := ⟨passages.map Passage.verdict, false⟩

/-- **Whatever happens in a race, each import tells what has become of its records.** -/
theorem exists_told {entrants : Side → s.Entrant} {c : Race} {history : List (Side × Call)}
    (past : (between entrants).Past c history) {results : Side → Except Error ImportReport}
    (finished : ∀ side, c.scripts side = .done (results side)) :
    ∃ passages, Told entrants history passages ∧
      ∀ side, results side = .ok (reportOf (passages side)) := by
  have each (side : Side) : ∃ passages : List Passage,
      results side = .ok (reportOf passages) ∧
      callsOf side history = passages.flatMap Passage.calls ∧
      passages.map Passage.record = (entrants side).snapshot.records ∧
      ∀ p ∈ passages, p.Follows (entrants side).user.id (entrants side).request.options
        (entrants side).now := by
    have leads := past.scripts side
    rw [finished, scripts_between] at leads
    have told := leads.exists_passages (entrants side).brought
    rw [(entrants side).real] at told
    exact told
  choose passages results calls records follows using each
  exact ⟨passages, ⟨calls, records, follows⟩, results⟩

namespace Told

variable {entrants : Side → s.Entrant} {history : List (Side × Call)}
  {passages : Side → List Passage} {t : Store}

/-- The memos that an import has created. -/
def createdBy (entrants : Side → s.Entrant) (passages : Side → List Passage) (side : Side) :
    List Memo :=
  Passage.createdMemos (entrants side).user.id (entrants side).request.options (entrants side).now
    (passages side)

/-- The calls have created the memos that the imports report as created. -/
theorem perm_created (told : Told entrants history passages) (side : Side) :
    ((history.map Prod.snd).filterMap Call.createdMemo?).Perm
      (createdBy entrants passages side ++ createdBy entrants passages side.other) := by
  have perm := ((perm_callsOf side history).filterMap Call.createdMemo?).symm
  rw [List.filterMap_append, told.calls, told.calls, Passage.createdMemos_eq (told.follows side),
    Passage.createdMemos_eq (told.follows side.other)] at perm
  exact perm

/-- The calls of a passage are among those that were served. -/
theorem mem_history (told : Told entrants history passages) {side : Side} {p : Passage}
    (hp : p ∈ passages side) {c : Call} (hc : c ∈ p.calls) : c ∈ history.map Prod.snd := by
  refine (perm_callsOf side history).subset (List.mem_append_left _ ?_)
  rw [told.calls]
  exact List.mem_flatMap.2 ⟨p, hp, hc⟩

/-- **As many memos are added as the imports report as created.** -/
theorem length_memos (told : Told entrants history passages)
    (served : s.Serves (history.map Prod.snd) t) :
    t.memos.length = s.memos.length + (passages .left).countP Passage.created +
      (passages .right).countP Passage.created := by
  rw [served.length_memos, (told.perm_created .left).length_eq, List.length_append]
  simp only [createdBy, Passage.createdMemos, List.length_map, ← List.countP_eq_length_filter]
  exact (Nat.add_assoc _ _ _).symm

/-- A memo that was created is that of a record which is reported as created. -/
theorem exists_creator (told : Told entrants history passages) {m : Memo}
    (hm : m ∈ (history.map Prod.snd).filterMap Call.createdMemo?) :
    ∃ side, ∃ p ∈ passages side, p.created = true ∧
      m = p.record.toMemo (entrants side).user.id (entrants side).request.options
        (entrants side).now := by
  have some : ∃ side, m ∈ createdBy entrants passages side := by
    rcases List.mem_append.1 ((told.perm_created .left).subset hm) with hm | hm
    · exact ⟨_, hm⟩
    · exact ⟨_, hm⟩
  obtain ⟨side, hm⟩ := some
  obtain ⟨p, hp, rfl⟩ := List.mem_map.1 hm
  exact ⟨side, p, (List.mem_filter.1 hp).1, (List.mem_filter.1 hp).2, rfl⟩

/-- The row of a new memo holds its record. -/
theorem fills (told : Told entrants history passages) {side : Side} {p : Passage}
    (hp : p ∈ passages side) (id : MemoId) :
    (entrants side).Fills p.record (.ofMemo id (p.record.toMemo (entrants side).user.id
      (entrants side).request.options (entrants side).now)) := by
  have finite := ImportRequest.isFinite_snapshot (entrants side).brought
  have among : p.record ∈ (entrants side).snapshot.records := by
    rw [← told.records]
    exact List.mem_map_of_mem hp
  exact Store.memo_ofMemo_toMemo (finite p.record among) _ _ _ id

variable (keep : ∀ side, (entrants side).request.options.overwriteExisting = false)

include keep

/-- Without leave to overwrite, the memos that were created are all that has changed. -/
theorem eq_withRows (told : Told entrants history passages)
    (served : s.Serves (history.map Prod.snd) t) :
    t = s.withRows ((history.map Prod.snd).filterMap Call.createdMemo?) := by
  refine served.eq_withRows fun c hc => ?_
  have among := (perm_callsOf .left history).symm.subset hc
  rw [told.calls, told.calls, List.mem_append, List.mem_flatMap, List.mem_flatMap] at among
  rcases among with ⟨p, hp, hc⟩ | ⟨p, hp, hc⟩
  · exact (told.follows .left p hp).hasUpdated_eq_false (keep .left) c hc
  · exact (told.follows .right p hp).hasUpdated_eq_false (keep .right) c hc

/-- No text key is created twice. -/
theorem nodup_createdUids (hs : s.WellFormed) (told : Told entrants history passages)
    (served : s.Serves (history.map Prod.snd) t) (side : Side) :
    (Passage.createdUids (passages side) ++
      Passage.createdUids (passages side.other)).Nodup := by
  have keys := (served.wellFormed hs).uids
  rw [told.eq_withRows keep served, Store.uids_withRows, List.nodup_append] at keys
  have perm := (told.perm_created side).map (·.uid)
  rw [List.map_append, createdBy, createdBy, Passage.map_uid_createdMemos,
    Passage.map_uid_createdMemos] at perm
  exact perm.nodup_iff.1 keys.2.1

/-- **A new memo is that of one record, which has beaten all others with its text key.** -/
theorem beaten (hs : s.WellFormed) (told : Told entrants history passages)
    (served : s.Serves (history.map Prod.snd) t) {side : Side} {before after : List Passage}
    {p : Passage} (split : passages side = before ++ p :: after) (made : p.created = true) :
    ∀ q ∈ before ++ after ++ passages side.other, q.record.uid = p.record.uid →
      q.verdict.IsBeaten q.record.uid := by
  have truthful {side : Side} {q : Passage} (hq : q ∈ passages side) :
      ∀ c ∈ q.calls, c.IsTruthful s := fun c hc =>
    served.isTruthful hs c (told.mem_history hq hc)
  have hp : p ∈ passages side := by
    rw [split]
    exact List.mem_append_right _ List.mem_cons_self
  obtain ⟨limit, hl⟩ := (told.follows side p hp).exists_limit made (truthful hp)
  have distinct := told.nodup_createdUids keep hs served side
  rw [split] at distinct
  intro q hq same
  have lost := Passage.created_eq_false_of_nodup distinct made q hq same
  have somewhere : ∃ side', q ∈ passages side' := by
    rcases List.mem_append.1 hq with hq | hq
    · refine ⟨side, ?_⟩
      rw [split]
      exact List.perm_middle.symm.subset (List.mem_cons_of_mem p hq)
    · exact ⟨side.other, hq⟩
  obtain ⟨side', hq⟩ := somewhere
  have known := Store.any_id_of_user? (entrants side').known
  rcases (told.follows side' q hq).created_or_beaten (entrants side').real (keep side')
    (truthful hq) known hl with made' | beaten
  · rw [lost] at made'
    cases made'
  · exact beaten

end Told

/-- What two imports have come to, with the passages that their records have taken. -/
structure IsFair (entrants : Side → s.Entrant) (t : Store) (passages : Side → List Passage) :
    Prop where
  /-- Each import takes its own records, one after another. -/
  records : ∀ side, (passages side).map Passage.record = (entrants side).snapshot.records
  /-- Each record is reported once: as created, as updated or as rejected. -/
  concerned : ∀ side, ∀ p ∈ passages side, p.verdict.disposition? = some .created ∨
    p.verdict.disposition? = some .updated ∨ ∃ e, p.verdict = .error ⟨p.record.uid, e⟩
  /-- If the records can be counted, they are. -/
  accounts : ∀ side, (passages side).length < 2 ^ 32 → ∀ elapsed,
    ((reportOf (passages side)).response elapsed).AccountsFor (entrants side).request.options
      (passages side)
  once : ∀ side, (passages side).length < 2 ^ 32 → ∀ elapsed,
    ((reportOf (passages side)).response elapsed).createdCount.toNat +
      ((reportOf (passages side)).response elapsed).updatedCount.toNat +
      ((reportOf (passages side)).response elapsed).skippedCount.toNat = (passages side).length
  /-- A memo is added for each record that is reported as created. -/
  added : t.memos.length = s.memos.length + (passages .left).countP Passage.created +
    (passages .right).countP Passage.created
  counted : (∀ side, (passages side).length < 2 ^ 32) → ∀ elapsed elapsed',
    t.memos.length = s.memos.length +
      ((reportOf (passages .left)).response elapsed).createdCount.toNat +
      ((reportOf (passages .right)).response elapsed').createdCount.toNat
  /-- Without leave to overwrite, each new memo is that of one record, which has beaten all others
  with its text key. -/
  kept : (∀ side, (entrants side).request.options.overwriteExisting = false) →
    ∃ new, t.memos = s.memos ++ new ∧ ∀ row ∈ new, ∃ side before p after,
      passages side = before ++ p :: after ∧ p.created = true ∧
      (entrants side).Fills p.record row ∧
      ∀ q ∈ before ++ after ++ passages side.other, q.record.uid = row.uid →
        q.verdict.IsBeaten row.uid

theorem countP_created_eq {passages : List Passage} (few : passages.length < 2 ^ 32)
    (elapsed : Nat) : ((reportOf passages).response elapsed).createdCount.toNat =
      passages.countP Passage.created := by
  have response := (reportOf passages).response_eq elapsed
  dsimp only at response
  rw [response, reportOf, List.countP_map]
  exact UInt32.toNat_ofNat_of_lt' (Nat.lt_of_le_of_lt List.countP_le_length few)

/-- If each record is created, updated or rejected, the three numbers add up. -/
theorem countP_add_countP_add_length {passages : List Passage}
    (concerned : ∀ p ∈ passages, p.verdict.disposition? = some .created ∨
      p.verdict.disposition? = some .updated ∨ ∃ e, p.verdict = .error ⟨p.record.uid, e⟩) :
    (passages.map Passage.verdict).countP (·.disposition? = some .created) +
      (passages.map Passage.verdict).countP (·.disposition? = some .updated) +
      ((passages.map Passage.verdict).filterMap Verdict.rejection?).length = passages.length := by
  induction passages with
  | nil => rfl
  | cons p passages ih =>
    rw [List.forall_mem_cons] at concerned
    have rest := ih concerned.2
    have one := Verdict.counted_once (concerned.1.imp_right (Or.imp_right fun ⟨e, h⟩ => ⟨_, h⟩))
    rw [List.map_cons, ← List.singleton_append, List.countP_append, List.countP_append,
      List.filterMap_append, List.length_append, List.length_cons]
    omega

/-- **A race of two imports is fair.** -/
theorem Told.isFair {entrants : Side → s.Entrant} {history : List (Side × Call)}
    {passages : Side → List Passage} {t : Store} (hs : s.WellFormed)
    (told : Told entrants history passages) (served : s.Serves (history.map Prod.snd) t) :
    IsFair entrants t passages where
  records := told.records
  concerned side p hp := (told.follows side p hp).concerned (entrants side).real
  accounts side few elapsed :=
    ImportReport.accountsFor rfl (entrants side).real.symm (told.follows side) few elapsed
  once side few elapsed := by
    have sum := countP_add_countP_add_length fun p hp =>
      (told.follows side p hp).concerned (entrants side).real
    have counted {n : Nat} (h : n ≤ (passages side).length) : (UInt32.ofNat n).toNat = n :=
      UInt32.toNat_ofNat_of_lt' (Nat.lt_of_le_of_lt h few)
    have response := (reportOf (passages side)).response_eq elapsed
    dsimp only [ImportReport.rejections_eq, reportOf] at response
    rw [reportOf, response]
    dsimp only
    rw [counted (by omega), counted (by omega), counted (by omega)]
    exact sum
  added := told.length_memos served
  counted few elapsed elapsed' := by
    rw [countP_created_eq (few .left), countP_created_eq (few .right)]
    exact told.length_memos served
  kept keep := by
    have grown := congrArg Store.memos (told.eq_withRows keep served)
    rw [Store.withRows_eq] at grown
    refine ⟨_, grown, fun row hrow => ?_⟩
    obtain ⟨i, hi, rfl⟩ := List.mem_mapIdx.1 hrow
    obtain ⟨side, p, hp, made, e⟩ := told.exists_creator (List.getElem_mem hi)
    obtain ⟨before, after, split⟩ := List.append_of_mem hp
    rw [e]
    refine ⟨side, before, p, after, split, made, told.fills hp _, fun q hq same => ?_⟩
    have key : q.record.uid = p.record.uid := same
    have beaten := told.beaten keep hs served split made q hq key
    rw [key] at beaten
    exact beaten

/-- **Two imports may race.** Whatever the order of their calls is, no two memos ever have the same
text key, and both imports can come to their ends. They then report of each of their records once,
as many memos have been added as they report as created, and without leave to overwrite the memos
that were stored are still there, and each new one is that of the one record that is reported as
created under its text key, while all others were rejected because of it or because of their
length. -/
theorem between_fair (hs : s.WellFormed) (entrants : Side → s.Entrant) (schedule : List Side) :
    (((between entrants).run schedule).store.memos.map (·.uid)).Nodup ∧
      (∃ more, ((between entrants).run (schedule ++ more)).IsOver) ∧
      ∀ results : Side → Except Error ImportReport,
        (∀ side, ((between entrants).run schedule).scripts side = .done (results side)) →
        ∃ passages, (∀ side, results side = .ok (reportOf (passages side))) ∧
          IsFair entrants ((between entrants).run schedule).store passages := by
  obtain ⟨history, past⟩ := (between entrants).exists_past schedule
  refine ⟨(past.store.wellFormed hs).uids, ?_, fun results finished => ?_⟩
  · obtain ⟨more, finished⟩ := ((between entrants).run schedule).exists_isOver
    refine ⟨more, ?_⟩
    rw [run_append]
    exact finished
  · obtain ⟨passages, told, reports⟩ := exists_told past finished
    exact ⟨passages, reports, told.isFair hs past.store⟩

/-- A record of the same memo for each caller. -/
def contested : Side → MemoRecord
  | .left => ⟨"a", "one", "PUBLIC", true, .epoch, .epoch, none, [], none, [], []⟩
  | .right => ⟨"a", "two", "SECRET", false, .epoch, .epoch, none, [], none, [], []⟩

theorem isFinite_contested (side : Side) : ∀ r ∈ [contested side], r.IsFinite := by
  cases side <;> decide

/-- Both callers import the memo for the same user. -/
def contest (side : Side) : Store.lone.Entrant where
  username := "alice"
  user := ⟨1, "alice"⟩
  known := rfl
  request := Store.bringing [contested side]
  snapshot := .ofRecords .epoch [contested side]
  brought := Store.snapshot_bringing (isFinite_contested side)
  real := rfl
  now := 60

/-- Both find no memo, and then the first one is faster. -/
def overlapping : List Side := [.left, .left, .right, .right, .left, .right]

/-- One of the records has made the memo, and the other one has not changed it. -/
theorem between_fair_contest : ∃ passages,
    IsFair contest ((between contest).run overlapping).store passages ∧
      ((between contest).run overlapping).store.memos.map (·.content) = ["one"] ∧
      (passages .left).countP Passage.created + (passages .right).countP Passage.created = 1 := by
  have keys : Store.lone.WellFormed := Store.WellFormed.empty.of_memos rfl rfl
  have ended : ((between contest).run overlapping).IsOver ∧
      ((between contest).run overlapping).store.memos.map (·.content) = ["one"] := by
    rw [between_eq_ofRecords]
    decide +kernel
  obtain ⟨results, finished⟩ := ended.1.exists_results
  obtain ⟨passages, -, fair⟩ := (between_fair keys contest overlapping).2.2 results finished
  have added := fair.added
  have single := congrArg List.length ended.2
  have nothing : Store.lone.memos.length = 0 := rfl
  rw [List.length_map] at single
  rw [single, nothing, Nat.zero_add] at added
  exact ⟨passages, fair, ended.2, added.symm⟩

end Race

end MemoTransfer
