import MemoTransfer.Proofs.Transfer.Histories

/-!
# What is put in and what is changed

A store puts a memo in unless its text key is taken or its creator is unknown, and says which of
them it is; the memo is then found as it was given, under a number of its own (`Store.Creates`). A
patch of a memo that is not there is refused, unless it gives nothing; otherwise the parts that it
gives replace those of the memo, and nothing else in the store changes (`Store.Updates`). Both hold
after any operations (`Store.run_stores`), for payloads with finite coordinates, since only these
read back from what is written.
-/

namespace MemoTransfer

open MemoTransfer.Number

/-! ## Patches of nothing -/

theorem MemoPatch.isEmpty_iff {p : MemoPatch} : p.isEmpty = true ↔ p = { id := p.id } := by
  obtain ⟨id, content, visibility, pinned, rowStatus, payload, createdTs, updatedTs, displayTs⟩ := p
  simp [isEmpty, and_assoc]

theorem MemoRow.patch_nothing (r : MemoRow) (id : MemoId) : r.patch { id := id } = r := by
  obtain ⟨_, _, _, _, _, _, _, _, _, _, displayTs⟩ := r
  cases displayTs <;> rfl

namespace Store

variable {s : Store}

theorem withPatch_nothing (s : Store) (id : MemoId) : s.withPatch { id := id } = s := by
  have each : (fun r : MemoRow => if r.id = id then r.patch { id := id } else r) = fun r => r := by
    funext r
    rw [MemoRow.patch_nothing, ite_self]
  rw [withPatch, each, List.map_id']

/-! ## Memos that are put in -/

/-- The answer to a memo that is to be put in. -/
structure Creates (s : Store) (m : Memo) (answer : Except Error (Memo × Store)) : Prop where
  /-- The text key is refused just if a memo has it, whoever created that one. -/
  taken : answer = .error (.memoAlreadyExists m.uid) ↔ ∃ r ∈ s.memos, r.uid = m.uid
  /-- A free text key is refused just if the creator of the memo has no row. -/
  unowned : answer = .error .noReferent ↔
    (∀ r ∈ s.memos, r.uid ≠ m.uid) ∧ ∀ user ∈ s.users, user.id ≠ m.creatorId
  /-- Otherwise the memo is there as it was given, but for its number, and so are all others. -/
  stored : (∀ r ∈ s.memos, r.uid ≠ m.uid) → (∃ user ∈ s.users, user.id = m.creatorId) →
    ∃ id t, answer = .ok ({ m with id := id }, t) ∧ (∀ r ∈ s.memos, r.id ≠ id) ∧
      t.getMemo (.byUid m.uid) = .ok (some { m with id := id }) ∧
      t.getMemo (.byId id) = .ok (some { m with id := id }) ∧
      ∃ r, r.memo = { m with id := id } ∧ t = { s with memos := s.memos ++ [r], lastMemo := id }

theorem createMemo_taken {m : Memo} {r : MemoRow} (hr : r ∈ s.memos) (same : r.uid = m.uid) :
    s.createMemo m = .error (.memoAlreadyExists m.uid) := by
  have found : (s.rowByUid? m.uid).isSome = true := by
    rw [rowByUid?, List.find?_isSome]
    exact ⟨r, hr, decide_eq_true same⟩
  rw [createMemo, found]
  rfl

theorem createMemo_unowned {m : Memo} (free : s.rowByUid? m.uid = none)
    (unknown : s.users.any (·.id = m.creatorId) = false) : s.createMemo m = .error .noReferent := by
  rw [createMemo, free, unknown]
  rfl

/-- **A memo that is put in is found as it was given.** -/
theorem creates (hs : s.WellFormed) {m : Memo} (finite : m.payload.IsFinite) :
    s.Creates m (s.createMemo m) := by
  by_cases taken : ∃ r ∈ s.memos, r.uid = m.uid
  · obtain ⟨r, hr, same⟩ := taken
    rw [createMemo_taken hr same]
    exact ⟨⟨fun _ => ⟨r, hr, same⟩, fun _ => rfl⟩, ⟨nofun, fun free => absurd same (free.1 r hr)⟩,
      fun free => absurd same (free r hr)⟩
  have free : ∀ r ∈ s.memos, r.uid ≠ m.uid := fun r hr same => taken ⟨r, hr, same⟩
  have none := rowByUid?_eq_none.2 free
  cases known : s.users.any (·.id = m.creatorId) with
  | false =>
    have unknown : ∀ user ∈ s.users, user.id ≠ m.creatorId := by simpa using known
    rw [createMemo_unowned none known]
    exact ⟨⟨nofun, fun h => absurd h taken⟩, ⟨fun _ => ⟨free, unknown⟩, fun _ => rfl⟩,
      fun _ ⟨user, hu, e⟩ => absurd e (unknown user hu)⟩
  | true =>
    obtain ⟨user, hu, e⟩ := List.any_eq_true.1 known
    have ht := hs.withRow none
    have row : MemoRow.ofMemo (s.lastMemo + 1) m ∈ (s.withRow m).memos :=
      List.mem_append_right _ List.mem_cons_self
    have memo := MemoRow.memo_ofMemo finite (s.lastMemo + 1)
    rw [createMemo_eq none known]
    refine ⟨⟨nofun, fun h => absurd h taken⟩,
      ⟨nofun, fun h => absurd (of_decide_eq_true e) (h.2 user hu)⟩, fun _ _ =>
      ⟨s.lastMemo + 1, s.withRow m, by rw [memo], fun r hr => ?_, ?_, ?_, _, memo, rfl⟩⟩
    · exact Int.ne_of_lt (Int.lt_add_one_of_le (hs.le_last r hr))
    · have found := getMemo_byUid ht m.uid
      rw [show (s.withRow m).rowByUid? m.uid = some _ from ht.rowByUid?_eq row, Option.map_some,
        memo] at found
      exact found
    · have found := getMemo_byId ht row
      rw [memo] at found
      exact found

/-! ## Memos that are changed -/

/-- The answer to a patch. -/
structure Updates (s : Store) (p : MemoPatch) (answer : Except Error Store) : Prop where
  /-- A patch is refused just if it gives something and its memo is not there. -/
  missing : answer = .error (.memoNotFound ("id " ++ intText p.id)) ↔
    p ≠ { id := p.id } ∧ ∀ r ∈ s.memos, r.id ≠ p.id
  /-- Otherwise the memo is patched, and the rows of all others and all other tables stay. -/
  changed : p = { id := p.id } ∨ (∃ r ∈ s.memos, r.id = p.id) →
    ∃ t, answer = .ok t ∧ { t with memos := s.memos } = s ∧
      List.Forall₂ (fun r r' => if r.id = p.id then r'.memo = r.memo.patch p else r' = r)
        s.memos t.memos ∧
      ∀ r ∈ s.memos, r.id = p.id → t.getMemo (.byId p.id) = .ok (some (r.memo.patch p))

/-- A patch that is not refused changes the row of its memo. -/
theorem updateMemo_cases (s : Store) (p : MemoPatch) :
    (p ≠ { id := p.id } ∧ (∀ r ∈ s.memos, r.id ≠ p.id) ∧
      s.updateMemo p = .error (.memoNotFound ("id " ++ intText p.id))) ∨
    (p = { id := p.id } ∨ ∃ r ∈ s.memos, r.id = p.id) ∧ s.updateMemo p = .ok (s.withPatch p) := by
  cases nothing : p.isEmpty with
  | true =>
    have e := MemoPatch.isEmpty_iff.1 nothing
    refine .inr ⟨.inl e, ?_⟩
    rw [updateMemo, nothing, e, withPatch_nothing]
    rfl
  | false =>
    have something : p ≠ { id := p.id } := fun e => by
      rw [MemoPatch.isEmpty_iff.2 e] at nothing
      cases nothing
    cases there : s.hasMemo p.id with
    | true =>
      obtain ⟨r, hr, same⟩ := List.any_eq_true.1 there
      exact .inr ⟨.inr ⟨r, hr, of_decide_eq_true same⟩, updateMemo_eq nothing there⟩
    | false =>
      refine .inl ⟨something, by simpa [hasMemo] using there, ?_⟩
      rw [updateMemo, nothing, there]
      rfl

/-- **A patch replaces what it gives.** -/
theorem updates (hs : s.WellFormed) {p : MemoPatch} (finite : ∀ q ∈ p.payload, q.IsFinite) :
    s.Updates p (s.updateMemo p) := by
  rcases s.updateMemo_cases p with ⟨something, absent, e⟩ | ⟨accepted, e⟩
  · rw [e]
    refine ⟨⟨fun _ => ⟨something, absent⟩, fun _ => rfl⟩, ?_⟩
    rintro (nothing | ⟨r, hr, same⟩)
    · exact absurd nothing something
    · exact absurd same (absent r hr)
  · rw [e]
    refine ⟨⟨nofun, ?_⟩, fun _ => ⟨s.withPatch p, rfl, rfl, ?_, fun r hr same => ?_⟩⟩
    · rintro ⟨something, absent⟩
      rcases accepted with nothing | ⟨r, hr, same⟩
      · exact absurd nothing something
      · exact absurd same (absent r hr)
    · refine List.forall₂_map_right_iff.2 (List.forall₂_same.2 fun r _ => ?_)
      split
      · exact r.memo_patch finite
      · rfl
    · have row : r.patch p ∈ (s.withPatch p).memos := List.mem_map.2 ⟨r, hr, if_pos same⟩
      have found := getMemo_byId (hs.withPatch p) row
      rw [r.memo_patch finite, r.patch_id, same] at found
      exact found

/-! ## Changes after any operations -/

/-- **A store keeps what it is given.** After any operations, a memo with finite coordinates is put
in unless its key is taken or its creator is unknown, and is found as it was given; and a patch with
finite coordinates replaces what it gives in its memo and nothing else. -/
theorem run_stores (ops : List Operation) :
    (∀ m : Memo, m.payload.IsFinite → (run ops).Creates m ((run ops).createMemo m)) ∧
      ∀ p : MemoPatch, (∀ q ∈ p.payload, q.IsFinite) →
        (run ops).Updates p ((run ops).updateMemo p) :=
  ⟨fun _ finite => creates (run_consistent ops).wellFormed finite,
    fun _ finite => updates (run_consistent ops).wellFormed finite⟩

/-- A payload with a place. -/
def placed : Payload :=
  ⟨["x"], .plain, some ⟨"here", ⟨0x8000000000000000⟩, ⟨0x3FB999999999999A⟩⟩⟩

/-- The memo moves to that place. -/
def moving : MemoPatch := { id := 1, payload := some placed, displayTs := some 5 }

/-- A memo with a place is put in beside another one, and the other one moves to that place. -/
theorem run_stores_placed :
    (∃ id t, (run drafted).createMemo { draft with uid := "b", payload := placed } =
        .ok ({ draft with id := id, uid := "b", payload := placed }, t) ∧
      t.getMemo (.byUid "b") = .ok (some { draft with id := id, uid := "b", payload := placed })) ∧
    ∃ t, (run drafted).updateMemo moving = .ok t ∧ t.getMemo (.byId 1) =
      .ok (some { draft with id := 1, payload := placed, displayTs := some 5 }) := by
  have finite : placed.IsFinite := by decide
  have row : MemoRow.ofMemo 1 draft ∈ (run drafted).memos := List.mem_singleton.2 rfl
  have memo : (MemoRow.ofMemo 1 draft).memo = { draft with id := 1 } :=
    MemoRow.memo_ofMemo (by decide) 1
  obtain ⟨creates, updates⟩ := run_stores drafted
  constructor
  · have free : ∀ r ∈ (run drafted).memos, r.uid ≠ "b" := by
      intro r hr
      rw [List.mem_singleton.1 hr]
      decide
    obtain ⟨id, t, created, -, found, -⟩ := (creates { draft with uid := "b", payload := placed }
      finite).stored free ⟨⟨1, "alice"⟩, List.mem_singleton.2 rfl, rfl⟩
    exact ⟨id, t, created, found⟩
  · have given : ∀ q ∈ moving.payload, q.IsFinite := by
      intro q hq
      obtain rfl := Option.some.inj hq
      exact finite
    obtain ⟨t, updated, -, -, found⟩ := (updates moving given).changed (.inr ⟨_, row, rfl⟩)
    refine ⟨t, updated, ?_⟩
    have moved := found _ row rfl
    rw [memo] at moved
    exact moved

end Store

end MemoTransfer
