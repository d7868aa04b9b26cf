import MemoTransfer.Proofs.Transfer.Operations

/-!
# The integrity of a store

The tables of a store fit together (`Store.Consistent`): no key comes twice, rows refer to rows that
are there, and numbers increase in the order in which rows were put in. Every change of a table
keeps that (`Store.Alters.consistent`). From one store to a later one the last number of a table
never decreases, and a row that is new has a greater number than any before it (`Store.Precedes`),
so that a number means the same row for ever, and is never given again when the row is gone
(`Lasting.of_grows`).
-/

namespace MemoTransfer

/-! ## Numbered rows -/

/-- Rows of a table, by their numbers and their text keys, and the last number that was given. -/
structure Keyed (rows : List (Int × String)) (last : Int) : Prop where
  /-- No text key comes twice. -/
  keys : (rows.map Prod.snd).Nodup
  /-- The numbers increase, so that none comes twice either. -/
  increasing : rows.Pairwise fun x y => x.1 < y.1
  le_last : ∀ x ∈ rows, x.1 ≤ last

namespace Keyed

variable {rows rows' : List (Int × String)} {last : Int} {key : String}

theorem nil : Keyed [] 0 := ⟨List.nodup_nil, List.Pairwise.nil, by simp⟩

theorem sublist (h : Keyed rows last) (sub : rows'.Sublist rows) : Keyed rows' last :=
  ⟨h.keys.sublist (sub.map _), h.increasing.sublist sub, fun x hx => h.le_last x (sub.subset hx)⟩

/-- A new row gets the next number. -/
theorem concat (h : Keyed rows last) (free : ∀ x ∈ rows, x.2 ≠ key) :
    Keyed (rows ++ [(last + 1, key)]) (last + 1) := by
  refine ⟨?_, ?_, ?_⟩
  · rw [List.map_append, List.map_singleton]
    refine List.nodup_append.2 ⟨h.keys, List.nodup_singleton _, ?_⟩
    simp only [List.mem_map, List.mem_singleton]
    rintro _ ⟨x, hx, rfl⟩ _ rfl
    exact free x hx
  · refine List.pairwise_append.2 ⟨h.increasing, List.pairwise_singleton _ _, ?_⟩
    intro x hx y hy
    rw [List.mem_singleton.1 hy]
    exact Int.lt_add_one_of_le (h.le_last x hx)
  · intro x hx
    rcases List.mem_append.1 hx with hx | hx
    · exact Int.le_add_one (h.le_last x hx)
    · rw [List.mem_singleton.1 hx]

/-- A number belongs to one row. -/
theorem eq_of_number (h : Keyed rows last) {x y : Int × String} (hx : x ∈ rows) (hy : y ∈ rows)
    (same : x.1 = y.1) : x = y := by
  have distinct : (rows.map Prod.fst).Nodup := by
    rw [List.nodup_iff_pairwise_ne, List.pairwise_map]
    exact h.increasing.imp Int.ne_of_lt
  exact List.inj_on_of_nodup_map distinct hx hy same

end Keyed

/-- From one state of a table to a later one: the last number does not decrease, and what is new
has a greater number. -/
structure Grows (rows : List (Int × String)) (last : Int) (rows' : List (Int × String))
    (last' : Int) : Prop where
  last_le : last ≤ last'
  fresh : ∀ x ∈ rows', x ∈ rows ∨ last < x.1

namespace Grows

variable {rows rows' rows'' : List (Int × String)} {last last' last'' : Int}

theorem refl (rows : List (Int × String)) (last : Int) : Grows rows last rows last :=
  ⟨Int.le_refl _, fun _ => .inl⟩

theorem of_subset (last : Int) (h : rows' ⊆ rows) : Grows rows last rows' last :=
  ⟨Int.le_refl _, fun _ hx => .inl (h hx)⟩

theorem concat (rows : List (Int × String)) (last : Int) (key : String) :
    Grows rows last (rows ++ [(last + 1, key)]) (last + 1) := by
  refine ⟨Int.le_add_one (Int.le_refl _), fun x hx => ?_⟩
  rcases List.mem_append.1 hx with hx | hx
  · exact .inl hx
  · rw [List.mem_singleton.1 hx]
    exact .inr (Int.lt_add_one_of_le (Int.le_refl _))

theorem trans (h : Grows rows last rows' last') (h' : Grows rows' last' rows'' last'') :
    Grows rows last rows'' last'' := by
  refine ⟨Int.le_trans h.last_le h'.last_le, fun x hx => ?_⟩
  rcases h'.fresh x hx with hx | later
  · exact h.fresh x hx
  · exact .inr (Int.lt_of_le_of_lt h.last_le later)

end Grows

/-- What the numbers of a table mean in three states of it, one after another. -/
structure Lasting (first second third : List (Int × String)) : Prop where
  /-- A row that is new in the end has a greater number than any there was at first. -/
  fresh : ∀ x ∈ first, ∀ y ∈ third, y ∉ second → x.1 < y.1
  /-- A number means the same row later. -/
  same : ∀ x ∈ first, ∀ y ∈ second, x.1 = y.1 → x = y
  /-- A number that is gone is not given again. -/
  gone : ∀ x ∈ first, (∀ y ∈ second, y.1 ≠ x.1) → ∀ y ∈ third, y.1 ≠ x.1

theorem Lasting.of_grows {first second third : List (Int × String)} {last last' last'' : Int}
    (keyed : Keyed first last) (h : Grows first last second last')
    (h' : Grows second last' third last'') : Lasting first second third := by
  have fresh : ∀ x ∈ first, ∀ y ∈ third, y ∉ second → x.1 < y.1 := by
    intro x hx y hy new
    have later := (h'.fresh y hy).resolve_left new
    exact Int.lt_of_le_of_lt (Int.le_trans (keyed.le_last x hx) h.last_le) later
  refine ⟨fresh, ?_, ?_⟩
  · intro x hx y hy number
    rcases h.fresh y hy with old | later
    · exact keyed.eq_of_number hx old number
    · have := keyed.le_last x hx
      omega
  · intro x hx absent y hy number
    have new : y ∉ second := fun old => absent y old number
    have := fresh x hx y hy new
    omega

/-! ## Consistent stores -/

namespace Store

/-- The numbers and names of the users. -/
def userKeys (s : Store) : List (Int × String) := s.users.map fun u => (u.id, u.username)

/-- The numbers and text keys of the memos. -/
def memoKeys (s : Store) : List (Int × String) := s.memos.map fun r => (r.id, r.uid)

/-- The numbers and text keys of the attachments. -/
def attachmentKeys (s : Store) : List (Int × String) := s.attachments.map fun a => (a.id, a.uid)

/-- The tables fit together. -/
structure Consistent (s : Store) : Prop where
  users : Keyed s.userKeys s.lastUser
  memos : Keyed s.memoKeys s.lastMemo
  attachments : Keyed s.attachmentKeys s.lastAttachment
  /-- No setting has two values. -/
  settings : (s.settings.map Prod.fst).Nodup
  /-- No relation comes twice, in its stored form. -/
  relations : (s.relations.map fun r => (r.memoId, r.relatedId, r.kind.name)).Nodup
  /-- The kinds of relations are those of their names. -/
  kinds : ∀ r ∈ s.relations, RelationKind.ofName r.kind.name = r.kind
  /-- The creator of a memo is a user. -/
  creators : ∀ r ∈ s.memos, ∃ u ∈ s.users, u.id = r.creatorId
  /-- An attachment is without a memo, or its memo is there. -/
  owners : ∀ a ∈ s.attachments, ∀ id ∈ a.memoId, ∃ r ∈ s.memos, r.id = id

/-! ## Keys after a change -/

theorem userKeys_withUser (s : Store) (username : String) :
    (s.withUser username).userKeys = s.userKeys ++ [(s.lastUser + 1, username)] := by
  simp [userKeys, withUser]

theorem memoKeys_withRow (s : Store) (m : Memo) :
    (s.withRow m).memoKeys = s.memoKeys ++ [(s.lastMemo + 1, m.uid)] := by
  simp [memoKeys, withRow, MemoRow.ofMemo]

theorem memoKeys_withPatch (s : Store) (p : MemoPatch) : (s.withPatch p).memoKeys = s.memoKeys := by
  simp only [memoKeys, withPatch, List.map_map]
  refine List.map_congr_left fun r _ => ?_
  by_cases h : r.id = p.id <;> simp [h]

theorem memoKeys_deleteMemo_sublist (s : Store) (id : MemoId) :
    (s.deleteMemo id).memoKeys.Sublist s.memoKeys :=
  List.filter_sublist.map _

theorem attachmentKeys_deleteMemo (s : Store) (id : MemoId) :
    (s.deleteMemo id).attachmentKeys = s.attachmentKeys := by
  simp only [attachmentKeys, deleteMemo, List.map_map]
  refine List.map_congr_left fun a _ => ?_
  by_cases h : a.memoId = some id <;> simp [h]

theorem attachmentKeys_withAttachment (s : Store) (a : Attachment) :
    (s.withAttachment a).attachmentKeys = s.attachmentKeys ++ [(s.lastAttachment + 1, a.uid)] := by
  simp [attachmentKeys, withAttachment]

/-! ## Consistency after a change -/

namespace Consistent

variable {s t : Store}

theorem empty : Store.empty.Consistent := by
  refine ⟨.nil, .nil, .nil, List.nodup_nil, List.nodup_nil, ?_, ?_, ?_⟩ <;>
    simp [Store.empty]

theorem wellFormed (hs : s.Consistent) : s.WellFormed := by
  have uids := hs.memos.keys
  have ids := hs.memos.increasing
  refine ⟨?_, ?_, fun r hr => ?_⟩
  · rw [memoKeys, List.map_map] at uids
    exact uids
  · rw [memoKeys, List.pairwise_map] at ids
    rw [List.nodup_iff_pairwise_ne, List.pairwise_map]
    exact ids.imp Int.ne_of_lt
  · exact hs.memos.le_last (r.id, r.uid) (List.mem_map_of_mem hr)

theorem withUser (hs : s.Consistent) {username : String} (free : s.user? username = none) :
    (s.withUser username).Consistent := by
  have others : ∀ x ∈ s.userKeys, x.2 ≠ username := by
    rw [user?, List.find?_eq_none] at free
    simpa [userKeys] using free
  refine { hs with users := ?_, creators := fun r hr => ?_ }
  · rw [userKeys_withUser]
    exact hs.users.concat others
  · obtain ⟨u, hu, known⟩ := hs.creators r hr
    exact ⟨u, List.mem_append_left _ hu, known⟩

theorem withRow (hs : s.Consistent) {m : Memo} (free : s.rowByUid? m.uid = none)
    (known : s.users.any (·.id = m.creatorId) = true) : (s.withRow m).Consistent := by
  have others : ∀ x ∈ s.memoKeys, x.2 ≠ m.uid := by
    rw [rowByUid?_eq_none] at free
    simpa [memoKeys] using free
  refine { hs with memos := ?_, creators := ?_, owners := fun a ha id hid => ?_ }
  · rw [memoKeys_withRow]
    exact hs.memos.concat others
  · intro r hr
    rcases List.mem_append.1 hr with hr | hr
    · exact hs.creators r hr
    · obtain ⟨u, hu, same⟩ := List.any_eq_true.1 known
      rw [List.mem_singleton.1 hr]
      exact ⟨u, hu, of_decide_eq_true same⟩
  · obtain ⟨r, hr, there⟩ := hs.owners a ha id hid
    exact ⟨r, List.mem_append_left _ hr, there⟩

theorem withPatch (hs : s.Consistent) (p : MemoPatch) : (s.withPatch p).Consistent := by
  refine { hs with memos := ?_, creators := ?_, owners := fun a ha id hid => ?_ }
  · rw [memoKeys_withPatch]
    exact hs.memos
  · intro r hr
    obtain ⟨t, ht, rfl⟩ := List.mem_map.1 hr
    obtain ⟨u, hu, known⟩ := hs.creators t ht
    refine ⟨u, hu, ?_⟩
    split <;> exact known
  · obtain ⟨r, hr, there⟩ := hs.owners a ha id hid
    refine ⟨_, List.mem_map_of_mem hr, ?_⟩
    split <;> exact there

theorem deleteMemo (hs : s.Consistent) (id : MemoId) : (s.deleteMemo id).Consistent := by
  have kept : (s.deleteMemo id).memos.Sublist s.memos := List.filter_sublist
  have related : (s.deleteMemo id).relations.Sublist s.relations := List.filter_sublist
  refine { hs with
    memos := hs.memos.sublist (s.memoKeys_deleteMemo_sublist id)
    attachments := ?_
    relations := hs.relations.sublist (related.map _)
    kinds := fun r hr => hs.kinds r (related.subset hr)
    creators := fun r hr => hs.creators r (kept.subset hr)
    owners := ?_ }
  · rw [attachmentKeys_deleteMemo]
    exact hs.attachments
  · intro a ha other hother
    obtain ⟨b, hb, rfl⟩ := List.mem_map.1 ha
    split at hother
    · cases hother
    · rename_i stays
      obtain ⟨r, hr, there⟩ := hs.owners b hb other hother
      have apart : r.id ≠ id := by
        rintro rfl
        exact stays (there ▸ hother)
      exact ⟨r, List.mem_filter.2 ⟨hr, by simpa using apart⟩, there⟩

theorem withAttachment (hs : s.Consistent) {a : Attachment}
    (free : s.attachments.any (·.uid = a.uid) = false)
    (there : ∀ id ∈ a.memoId, s.hasMemo id = true) :
    (s.withAttachment a).Consistent := by
  have others : ∀ x ∈ s.attachmentKeys, x.2 ≠ a.uid := by
    simpa [attachmentKeys] using free
  refine { hs with attachments := ?_, owners := ?_ }
  · rw [attachmentKeys_withAttachment]
    exact hs.attachments.concat others
  · intro b hb id hid
    rcases List.mem_append.1 hb with hb | hb
    · exact hs.owners b hb id hid
    · rw [List.mem_singleton.1 hb] at hid
      obtain ⟨r, hr, same⟩ := List.any_eq_true.1 (there id hid)
      exact ⟨r, hr, of_decide_eq_true same⟩

theorem withRelation (hs : s.Consistent) {r : Relation}
    (known : RelationKind.ofName r.kind.name = r.kind) (free : r ∉ s.relations) :
    (s.withRelation r).Consistent := by
  refine { hs with relations := ?_, kinds := fun q hq => ?_ }
  · rw [Store.withRelation, List.map_append, List.map_singleton]
    refine List.nodup_append.2 ⟨hs.relations, List.nodup_singleton _, ?_⟩
    simp only [List.mem_map, List.mem_singleton]
    rintro _ ⟨q, hq, rfl⟩ _ rfl same
    rw [Prod.mk.injEq, Prod.mk.injEq] at same
    obtain ⟨from', to', name⟩ := same
    -- two kinds with one name are one kind, since both are stored
    have kind : q.kind = r.kind := by
      rw [← hs.kinds q hq, name, known]
    have twice : q = r := by
      cases q
      cases r
      simp_all
    exact free (twice ▸ hq)
  · rcases List.mem_append.1 hq with hq | hq
    · exact hs.kinds q hq
    · rw [List.mem_singleton.1 hq, known]

theorem setSetting (hs : s.Consistent) (name value : String) :
    (s.setSetting name value).Consistent := by
  unfold Store.setSetting
  split
  · have names : (s.settings.map fun p => if p.1 = name then (name, value) else p).map Prod.fst =
        s.settings.map Prod.fst := by
      rw [List.map_map]
      refine List.map_congr_left fun p _ => ?_
      by_cases h : p.1 = name <;> simp [h]
    refine { hs with settings := ?_ }
    rw [names]
    exact hs.settings
  · rename_i absent
    have free : ∀ p ∈ s.settings, p.1 ≠ name := by
      rw [Bool.not_eq_true, Option.isSome_eq_false_iff, Option.isNone_iff_eq_none, setting?,
        List.lookup_eq_none_iff] at absent
      intro p hp same
      simpa [same] using absent p hp
    refine { hs with settings := ?_ }
    rw [List.map_append, List.map_singleton]
    refine List.nodup_append.2 ⟨hs.settings, List.nodup_singleton _, ?_⟩
    simp only [List.mem_map, List.mem_singleton]
    rintro _ ⟨p, hp, rfl⟩ _ rfl
    exact free p hp

end Consistent

/-- **A change of a table keeps the tables consistent.** -/
theorem Alters.consistent {s t : Store} (hs : s.Consistent) (h : s.Alters t) : t.Consistent := by
  cases h with
  | unchanged => exact hs
  | user free => exact hs.withUser free
  | memo free known => exact hs.withRow free known
  | patched p => exact hs.withPatch p
  | removed id => exact hs.deleteMemo id
  | attachment free there => exact hs.withAttachment free there
  | relation known free => exact hs.withRelation known free
  | setting name value => exact hs.setSetting name value

/-! ## Growth -/

/-- The later store has the numbers of the earlier one, greater ones, and no others. -/
structure Precedes (s t : Store) : Prop where
  users : Grows s.userKeys s.lastUser t.userKeys t.lastUser
  memos : Grows s.memoKeys s.lastMemo t.memoKeys t.lastMemo
  attachments : Grows s.attachmentKeys s.lastAttachment t.attachmentKeys t.lastAttachment

namespace Precedes

variable {s t u : Store}

theorem refl (s : Store) : s.Precedes s := ⟨.refl _ _, .refl _ _, .refl _ _⟩

theorem trans (h : s.Precedes t) (h' : t.Precedes u) : s.Precedes u :=
  ⟨h.users.trans h'.users, h.memos.trans h'.memos, h.attachments.trans h'.attachments⟩

end Precedes

/-- **A change of a table gives new numbers only.** -/
theorem Alters.precedes {s t : Store} (h : s.Alters t) : s.Precedes t := by
  have same := Precedes.refl s
  cases h with
  | unchanged => exact same
  | user free =>
    refine { same with users := ?_ }
    rw [userKeys_withUser]
    exact .concat _ _ _
  | memo free known =>
    refine { same with memos := ?_ }
    rw [memoKeys_withRow]
    exact .concat _ _ _
  | patched p =>
    refine { same with memos := ?_ }
    rw [memoKeys_withPatch]
    exact same.memos
  | removed id =>
    have fewer := (s.memoKeys_deleteMemo_sublist id).subset
    refine { same with memos := .of_subset _ fewer, attachments := ?_ }
    rw [attachmentKeys_deleteMemo]
    exact same.attachments
  | attachment free there =>
    refine { same with attachments := ?_ }
    rw [attachmentKeys_withAttachment]
    exact .concat _ _ _
  | relation known free => exact { same with }
  | setting name value =>
    obtain ⟨settings, e⟩ := s.setSetting_eq name value
    rw [e]
    exact { same with }

end Store

end MemoTransfer
