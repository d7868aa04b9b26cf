import MemoTransfer.Proofs.Snapshot.Finite
import MemoTransfer.Store.Change

/-!
# Rows of memos

The table of memos keeps its keys: no two rows have the same text key or the same number, and no
number is beyond the last one (`Store.WellFormed`). Every change of the table puts a row behind the
others (`withRow`), changes one row in its place (`withPatch`) or takes rows out, and each of them
keeps the keys. Looking a text key up after the first two is described by `rowByUid?_withRow` and
`rowByUid?_withPatch`.

A row that was written by this program reads back as the memo that was written
(`MemoRow.memo_ofMemo`), since the coordinates of whatever is read are finite.
-/

namespace MemoTransfer

/-- If no key comes twice, at most one row has a key. -/
theorem filter_eq_toList_find? {α β : Type} [DecidableEq β] {key : α → β} {rows : List α}
    (h : (rows.map key).Nodup) (k : β) :
    rows.filter (key · = k) = (rows.find? (key · = k)).toList := by
  induction rows with
  | nil => rfl
  | cons r rows ih =>
    rw [List.map_cons, List.nodup_cons] at h
    by_cases same : key r = k
    · have others : rows.filter (key · = k) = [] := by
        rw [List.filter_eq_nil_iff]
        intro t ht e
        refine h.1 (List.mem_map.2 ⟨t, ht, ?_⟩)
        rw [same, of_decide_eq_true e]
      rw [List.filter_cons_of_pos (by simpa using same), others,
        List.find?_cons_of_pos (by simpa using same)]
      rfl
    · rw [List.filter_cons_of_neg (by simpa using same),
        List.find?_cons_of_neg (by simpa using same), ih h.2]

/-! ## Memos and their rows -/

namespace MemoRow

variable (r : MemoRow) (p : MemoPatch)

@[simp] theorem patch_id : (r.patch p).id = r.id := rfl

@[simp] theorem patch_uid : (r.patch p).uid = r.uid := rfl

@[simp] theorem patch_creatorId : (r.patch p).creatorId = r.creatorId := rfl

/-- The memo that was put into a row is the memo of the row, under its number. -/
theorem memo_ofMemo {m : Memo} (h : m.payload.IsFinite) (id : MemoId) :
    (MemoRow.ofMemo id m).memo = { m with id := id } := by
  simp only [memo, ofMemo, RowStatus.ofName?_name, Visibility.ofName?_name, Option.getD_some,
    Payload.read_write h]

end MemoRow

namespace Store

/-! ## Changes of the table -/

/-- The store with one more row, which holds the memo under the next number. -/
def withRow (s : Store) (m : Memo) : Store :=
  { s with memos := s.memos ++ [MemoRow.ofMemo (s.lastMemo + 1) m], lastMemo := s.lastMemo + 1 }

/-- The store in which the row of the patch is changed. -/
def withPatch (s : Store) (p : MemoPatch) : Store :=
  { s with memos := s.memos.map fun r => if r.id = p.id then r.patch p else r }

/-- The keys of the table of memos. -/
structure WellFormed (s : Store) : Prop where
  uids : (s.memos.map (·.uid)).Nodup
  ids : (s.memos.map (·.id)).Nodup
  le_last : ∀ r ∈ s.memos, r.id ≤ s.lastMemo

variable {s t : Store} {uid : String} {r : MemoRow}

theorem rowByUid?_eq_none : s.rowByUid? uid = none ↔ ∀ r ∈ s.memos, r.uid ≠ uid := by
  simp [rowByUid?, List.find?_eq_none]

theorem mem_of_rowByUid? (h : s.rowByUid? uid = some r) : r ∈ s.memos ∧ r.uid = uid :=
  ⟨List.mem_of_find?_eq_some h, by simpa using List.find?_some h⟩

/-- A user with a name has a row. -/
theorem any_id_of_user? {username : String} {user : User} (h : s.user? username = some user) :
    s.users.any (·.id = user.id) = true :=
  List.any_eq_true.2 ⟨user, List.mem_of_find?_eq_some h, decide_eq_true rfl⟩

theorem createMemo_eq {m : Memo} (free : s.rowByUid? m.uid = none)
    (known : s.users.any (·.id = m.creatorId) = true) :
    s.createMemo m = .ok ((MemoRow.ofMemo (s.lastMemo + 1) m).memo, s.withRow m) := by
  rw [createMemo, free, known]
  rfl

theorem updateMemo_eq {p : MemoPatch} (given : p.isEmpty = false) (h : s.hasMemo p.id = true) :
    s.updateMemo p = .ok (s.withPatch p) := by
  rw [updateMemo, given, h]
  rfl

/-- A store that a creation gives has one more row, under a free key and with a known creator. -/
theorem of_createMemo {m m' : Memo} (h : s.createMemo m = .ok (m', t)) :
    s.rowByUid? m.uid = none ∧ s.users.any (·.id = m.creatorId) = true ∧
      m' = (MemoRow.ofMemo (s.lastMemo + 1) m).memo ∧ t = s.withRow m := by
  unfold createMemo at h
  split at h
  · cases h
  · rename_i free
    split at h
    · cases h
    · rename_i known
      cases h
      exact ⟨by simpa using free, by simpa using known, rfl, rfl⟩

/-- A store that an update gives is changed in one row or not at all. -/
theorem of_updateMemo {p : MemoPatch} (h : s.updateMemo p = .ok t) : t = s ∨ t = s.withPatch p := by
  unfold updateMemo at h
  split at h
  · cases h
    exact .inl rfl
  · split at h
    · cases h
    · cases h
      exact .inr rfl

/-! ## Looking up after a change -/

theorem rowByUid?_withRow (s : Store) (m : Memo) (uid : String) :
    (s.withRow m).rowByUid? uid = (s.rowByUid? uid).or
      (if m.uid = uid then some (MemoRow.ofMemo (s.lastMemo + 1) m) else none) := by
  rw [rowByUid?, withRow, List.find?_append]
  congr 1
  by_cases h : m.uid = uid
  · simp [MemoRow.ofMemo, h]
  · simp [MemoRow.ofMemo, h]

theorem rowByUid?_withPatch (s : Store) (p : MemoPatch) (uid : String) :
    (s.withPatch p).rowByUid? uid =
      (s.rowByUid? uid).map fun r => if r.id = p.id then r.patch p else r := by
  rw [rowByUid?, withPatch, List.find?_map]
  congr 2
  funext r
  by_cases h : r.id = p.id
  · simp [h]
  · simp [h]

/-! ## Several rows -/

/-- The store with one more row for each memo, under the numbers that follow. -/
def withRows (s : Store) (ms : List Memo) : Store := ms.foldl withRow s

theorem withRows_eq (s : Store) (ms : List Memo) :
    s.withRows ms = { s with
      memos := s.memos ++ ms.mapIdx fun i m => MemoRow.ofMemo (s.lastMemo + i + 1) m
      lastMemo := s.lastMemo + ms.length } := by
  induction ms generalizing s with
  | nil => simp [withRows]
  | cons m ms ih =>
    have total (n : Int) (k : Nat) : n + 1 + k = n + (k + 1 : Nat) := by omega
    rw [withRows, List.foldl_cons, ← withRows, ih]
    simp only [withRow, List.append_assoc, List.singleton_append, List.mapIdx_cons, total,
      List.length_cons, Int.natCast_zero, Int.add_zero]

/-! ## Keys -/

namespace WellFormed

theorem empty : Store.empty.WellFormed :=
  ⟨List.nodup_nil, List.nodup_nil, fun _ h => absurd h List.not_mem_nil⟩

theorem eq_of_id (hs : s.WellFormed) (hr : r ∈ s.memos) {r' : MemoRow} (hr' : r' ∈ s.memos)
    (h : r.id = r'.id) : r = r' := List.inj_on_of_nodup_map hs.ids hr hr' h

theorem eq_of_uid (hs : s.WellFormed) (hr : r ∈ s.memos) {r' : MemoRow} (hr' : r' ∈ s.memos)
    (h : r.uid = r'.uid) : r = r' := List.inj_on_of_nodup_map hs.uids hr hr' h

/-- A row is found by its text key. -/
theorem rowByUid?_eq (hs : s.WellFormed) (hr : r ∈ s.memos) : s.rowByUid? r.uid = some r := by
  cases h : s.rowByUid? r.uid with
  | none => exact absurd rfl (rowByUid?_eq_none.1 h r hr)
  | some r' =>
    obtain ⟨hr', e⟩ := mem_of_rowByUid? h
    rw [hs.eq_of_uid hr' hr e]

/-- At most one row has a text key. -/
theorem filter_uid (hs : s.WellFormed) (uid : String) :
    s.memos.filter (·.uid = uid) = (s.rowByUid? uid).toList :=
  filter_eq_toList_find? hs.uids uid

/-- A row is found by its number. -/
theorem find?_id (hs : s.WellFormed) (hr : r ∈ s.memos) :
    s.memos.find? (·.id = r.id) = some r := by
  cases h : s.memos.find? (·.id = r.id) with
  | none => simpa using List.find?_eq_none.1 h r hr
  | some r' =>
    have same : r'.id = r.id := by simpa using List.find?_some h
    rw [hs.eq_of_id (List.mem_of_find?_eq_some h) hr same]

/-- At most one row has a number. -/
theorem filter_id (hs : s.WellFormed) (hr : r ∈ s.memos) : s.memos.filter (·.id = r.id) = [r] := by
  rw [filter_eq_toList_find? hs.ids r.id, hs.find?_id hr]
  rfl

theorem of_memos (hs : s.WellFormed) (h : t.memos = s.memos) (h' : t.lastMemo = s.lastMemo) :
    t.WellFormed := by
  constructor
  · rw [h]
    exact hs.uids
  · rw [h]
    exact hs.ids
  · rw [h, h']
    exact hs.le_last

theorem withRow (hs : s.WellFormed) {m : Memo} (free : s.rowByUid? m.uid = none) :
    (s.withRow m).WellFormed := by
  rw [rowByUid?_eq_none] at free
  have hlast := hs.le_last
  constructor
  · simp only [Store.withRow, List.map_append, List.map_singleton]
    refine List.nodup_append.2 ⟨hs.uids, List.nodup_singleton _, ?_⟩
    simp only [List.mem_map, List.mem_singleton]
    rintro _ ⟨r, hr, rfl⟩ _ rfl
    exact free r hr
  · simp only [Store.withRow, List.map_append, List.map_singleton]
    refine List.nodup_append.2 ⟨hs.ids, List.nodup_singleton _, ?_⟩
    simp only [List.mem_map, List.mem_singleton]
    rintro _ ⟨r, hr, rfl⟩ _ rfl e
    rw [MemoRow.ofMemo] at e
    exact absurd (e ▸ hlast r hr) (Int.not_le.2 (Int.lt_succ _))
  · intro r hr
    simp only [Store.withRow, List.mem_append, List.mem_singleton] at hr ⊢
    rcases hr with hr | rfl
    · exact Int.le_trans (hlast r hr) (Int.le_of_lt (Int.lt_succ _))
    · exact Int.le_refl _

theorem withPatch (hs : s.WellFormed) (p : MemoPatch) : (s.withPatch p).WellFormed := by
  have uids : (s.withPatch p).memos.map (·.uid) = s.memos.map (·.uid) := by
    simp only [Store.withPatch, List.map_map]
    refine List.map_congr_left fun r _ => ?_
    by_cases h : r.id = p.id <;> simp [h]
  have ids : (s.withPatch p).memos.map (·.id) = s.memos.map (·.id) := by
    simp only [Store.withPatch, List.map_map]
    refine List.map_congr_left fun r _ => ?_
    by_cases h : r.id = p.id <;> simp [h]
  refine ⟨uids ▸ hs.uids, ids ▸ hs.ids, fun r hr => ?_⟩
  have : r.id ∈ s.memos.map (·.id) := ids ▸ List.mem_map_of_mem hr
  obtain ⟨r', hr', e⟩ := List.mem_map.1 this
  rw [← e]
  exact hs.le_last r' hr'

theorem deleteMemo (hs : s.WellFormed) (id : MemoId) : (s.deleteMemo id).WellFormed := by
  have sub : List.Sublist (s.deleteMemo id).memos s.memos := List.filter_sublist
  exact ⟨hs.uids.sublist (sub.map _), hs.ids.sublist (sub.map _),
    fun r hr => hs.le_last r (sub.subset hr)⟩

end WellFormed

end Store

end MemoTransfer
