import MemoTransfer.Proofs.Store.Rows
import MemoTransfer.Transfer.Import

/-!
# Rows that say what they were given

A row that was made from a memo (`MemoRow.IsMade`) holds the names of its status and visibility. It
is written if the memo has finite coordinates (`MemoRow.IsWritten`): then it holds what its memo
says. A memo is sound if moreover its property is the one of its text, and an instant can name each
of its times (`Memo.IsSound`). A row is sound if it was made from such a memo.

Soundness is what brings an exported memo back as it was: a record that is made of the memo of a
sound row changes nothing in the row (`MemoRow.IsSound.patch_toPatch_ofMemo`). It is kept by the
changes of an import, for a new memo of a record is sound (`MemoRecord.isSound_toMemo`), and so is a
sound memo that is changed to what a record says (`MemoRecord.isSound_patch`).
-/

namespace MemoTransfer

open MemoTransfer.Calendar

/-- An instant can name the second. -/
def Calendar.InRange (t : Int) : Prop := firstSecond ≤ t ∧ t ≤ lastSecond

instance (t : Int) : Decidable (InRange t) := inferInstanceAs (Decidable (_ ∧ _))

theorem Calendar.Instant.inRange (t : Instant) : InRange t.seconds := ⟨t.first_le, t.le_last⟩

/-! ## Patches -/

/-- The memo with the given parts replaced. -/
def Memo.patch (m : Memo) (p : MemoPatch) : Memo :=
  { m with
    content := p.content.getD m.content
    visibility := p.visibility.getD m.visibility
    pinned := p.pinned.getD m.pinned
    rowStatus := p.rowStatus.getD m.rowStatus
    payload := p.payload.getD m.payload
    createdTs := p.createdTs.getD m.createdTs
    updatedTs := p.updatedTs.getD m.updatedTs
    displayTs := p.displayTs <|> m.displayTs }

/-- Changing the row of a memo is changing the memo. -/
theorem MemoRow.patch_ofMemo (id : MemoId) (m : Memo) (p : MemoPatch) :
    (ofMemo id m).patch p = ofMemo id (m.patch p) := by
  simp only [ofMemo, patch, Memo.patch, Option.getD_map]

/-- The memo of a changed row. -/
theorem MemoRow.memo_patch (r : MemoRow) {p : MemoPatch} (h : ∀ q ∈ p.payload, q.IsFinite) :
    (r.patch p).memo = r.memo.patch p := by
  have visibility : (Visibility.ofName? ((p.visibility.map Visibility.name).getD
      r.visibility)).getD default = p.visibility.getD r.memo.visibility := by
    cases p.visibility with
    | none => rfl
    | some v => simp [Visibility.ofName?_name]
  have status : (RowStatus.ofName? ((p.rowStatus.map RowStatus.name).getD r.rowStatus)).getD
      default = p.rowStatus.getD r.memo.rowStatus := by
    cases p.rowStatus with
    | none => rfl
    | some v => simp [RowStatus.ofName?_name]
  have payload : Payload.read ((p.payload.map Payload.write).getD r.payload) =
      p.payload.getD r.memo.payload := by
    cases hq : p.payload with
    | none => rfl
    | some q => exact Payload.read_write (h q hq)
  simp only [memo, patch, Memo.patch] at visibility status payload ⊢
  rw [visibility, status, payload]

/-! ## Sound memos -/

/-- Instants can name the times of the memo. -/
structure Memo.HasTimes (m : Memo) : Prop where
  created : InRange m.createdTs
  updated : InRange m.updatedTs
  displayed : ∀ t ∈ m.displayTs, InRange t

/-- The memo could have been written from its text, or read from a snapshot. -/
structure Memo.IsSound (m : Memo) : Prop extends m.HasTimes where
  isFinite : m.payload.IsFinite
  property : m.payload.property = .ofContent m.content

namespace MemoRecord

variable {r : MemoRecord} {m : Memo}

theorem knownVisibility_ofMemo (m : Memo) : (ofMemo m).knownVisibility.1 = m.visibility := by
  simp only [knownVisibility, ofMemo, Visibility.ofName?_name]

/-- The record of a memo holds the times of the memo, if instants can name them. -/
theorem seconds_ofMemo (hm : m.HasTimes) :
    (ofMemo m).createdAt.seconds = m.createdTs ∧ (ofMemo m).updatedAt.seconds = m.updatedTs ∧
      (ofMemo m).displayTime.map Instant.seconds = m.displayTs := by
  refine ⟨Instant.seconds_ofUnix hm.created, Instant.seconds_ofUnix hm.updated, ?_⟩
  unfold ofMemo
  cases hd : m.displayTs with
  | none => rfl
  | some t => simp [Instant.seconds_ofUnix (hm.displayed t hd)]

theorem inRange_times (r : MemoRecord) (options : ImportOptions) (now : Instant) :
    InRange (r.times options now.seconds).1 ∧ InRange (r.times options now.seconds).2 := by
  unfold times
  split
  · exact ⟨r.createdAt.inRange, r.updatedAt.inRange⟩
  · exact ⟨now.inRange, now.inRange⟩

theorem inRange_displayTime (r : MemoRecord) :
    ∀ t ∈ r.displayTime.map Instant.seconds, InRange t := by
  intro t ht
  obtain ⟨i, -, rfl⟩ := Option.mem_map.1 ht
  exact i.inRange

/-- The new memo of a record is sound. -/
theorem isSound_toMemo (h : r.IsFinite) (owner : UserId) (options : ImportOptions) (now : Instant) :
    (r.toMemo owner options now.seconds).IsSound where
  isFinite := h
  property := rfl
  created := (r.inRange_times options now).1
  updated := (r.inRange_times options now).2
  displayed := r.inRange_displayTime

/-- A sound memo that is changed to what a record says is sound. -/
theorem isSound_patch (h : r.IsFinite) (hm : m.IsSound) (id : MemoId) (options : ImportOptions) :
    (m.patch (r.toPatch id options)).IsSound := by
  refine ⟨⟨?_, ?_, ?_⟩, h, rfl⟩
  · cases hp : options.preserveTimestamps with
    | true => simpa [Memo.patch, toPatch, hp] using r.createdAt.inRange
    | false => simpa [Memo.patch, toPatch, hp] using hm.created
  · cases hp : options.preserveTimestamps with
    | true => simpa [Memo.patch, toPatch, hp] using r.updatedAt.inRange
    | false => simpa [Memo.patch, toPatch, hp] using hm.updated
  · cases hd : r.displayTime with
    | none => simpa [Memo.patch, toPatch, hd] using hm.displayed
    | some i => simpa [Memo.patch, toPatch, hd] using i.inRange

/-- What the record of a sound memo says is what the memo says. -/
theorem toPatch_ofMemo (hm : m.IsSound) (id : MemoId) (options : ImportOptions) :
    (ofMemo m).toPatch id options =
      { id := id
        content := some m.content
        visibility := some m.visibility
        pinned := some m.pinned
        payload := some m.payload
        createdTs := if options.preserveTimestamps then some m.createdTs else none
        updatedTs := if options.preserveTimestamps then some m.updatedTs else none
        displayTs := m.displayTs } := by
  have payload : { Payload.ofContent m.content m.payload.location with tags := m.payload.tags } =
      m.payload := by
    rw [Payload.ofContent, ← hm.property]
  obtain ⟨created, updated, displayed⟩ := seconds_ofMemo hm.toHasTimes
  rw [toPatch, knownVisibility_ofMemo, created, updated, displayed]
  simp only [ofMemo, payload]

/-- A sound memo is what its own record says. -/
theorem patch_toPatch_ofMemo (hm : m.IsSound) (id : MemoId) (options : ImportOptions) :
    m.patch ((ofMemo m).toPatch id options) = m := by
  rw [toPatch_ofMemo hm]
  obtain ⟨_, _, _, _, _, _, _, _, _, _, displayTs⟩ := m
  cases options.preserveTimestamps <;> cases displayTs <;> rfl

end MemoRecord

/-! ## Rows that were made from memos -/

/-- The row was made from a memo. -/
def MemoRow.IsMade (r : MemoRow) : Prop := ∃ m : Memo, r = ofMemo r.id m

namespace MemoRow

variable {r : MemoRow}

theorem isMade_ofMemo (id : MemoId) (m : Memo) : (ofMemo id m).IsMade := ⟨m, rfl⟩

theorem IsMade.patch (h : r.IsMade) (p : MemoPatch) : (r.patch p).IsMade := by
  obtain ⟨m, e⟩ := h
  rw [e, patch_ofMemo]
  exact isMade_ofMemo r.id _

/-- The status of a row that was made from a memo is a name. -/
theorem IsMade.rowStatus_eq (h : r.IsMade) : r.rowStatus = r.memo.rowStatus.name := by
  obtain ⟨m, e⟩ := h
  rw [e]
  simp [ofMemo, memo, RowStatus.ofName?_name]

end MemoRow

/-! ## Written rows -/

/-- The row was written from a memo with finite coordinates. -/
def MemoRow.IsWritten (r : MemoRow) : Prop := ∃ m : Memo, m.payload.IsFinite ∧ r = ofMemo r.id m

namespace MemoRow.IsWritten

variable {r : MemoRow}

theorem of_memo {m : Memo} (h : m.payload.IsFinite) (id : MemoId) : (ofMemo id m).IsWritten :=
  ⟨m, h, rfl⟩

theorem isMade (h : r.IsWritten) : r.IsMade := by
  obtain ⟨m, -, e⟩ := h
  exact ⟨m, e⟩

/-- A row that was written from a memo has this memo, under its number. -/
theorem memo_eq {m : Memo} (hm : m.payload.IsFinite) (e : r = ofMemo r.id m) :
    r.memo = { m with id := r.id } := by
  rw [e, memo_ofMemo hm]
  rfl

/-- A written row is the row of its memo. -/
theorem ofMemo_memo (h : r.IsWritten) : ofMemo r.id r.memo = r := by
  obtain ⟨m, hm, e⟩ := h
  rw [memo_eq hm e, e]
  rfl

theorem patch (h : r.IsWritten) {p : MemoPatch} (hp : ∀ q ∈ p.payload, q.IsFinite) :
    (r.patch p).IsWritten := by
  rw [← h.ofMemo_memo, patch_ofMemo]
  refine of_memo ?_ r.id
  rw [Memo.patch]
  cases hq : p.payload with
  | none => exact Payload.isFinite_read r.payload
  | some q => exact hp q hq

end MemoRow.IsWritten

/-! ## Sound rows -/

/-- The row was written from a sound memo. -/
def MemoRow.IsSound (r : MemoRow) : Prop := ∃ m : Memo, m.IsSound ∧ r = ofMemo r.id m

namespace MemoRow.IsSound

variable {r : MemoRow}

theorem of_memo {m : Memo} (h : m.IsSound) (id : MemoId) : (ofMemo id m).IsSound := ⟨m, h, rfl⟩

theorem isWritten (h : r.IsSound) : r.IsWritten := by
  obtain ⟨m, hm, e⟩ := h
  exact ⟨m, hm.isFinite, e⟩

/-- The memo of a sound row is sound. -/
theorem memo (h : r.IsSound) : r.memo.IsSound := by
  obtain ⟨m, hm, e⟩ := h
  rw [IsWritten.memo_eq hm.isFinite e]
  exact ⟨⟨hm.created, hm.updated, hm.displayed⟩, hm.isFinite, hm.property⟩

/-- A patched sound row is sound if the patched memo is. -/
theorem patch (h : r.IsSound) {p : MemoPatch} (hp : (r.memo.patch p).IsSound) :
    (r.patch p).IsSound := by
  rw [← h.isWritten.ofMemo_memo, patch_ofMemo]
  exact of_memo hp r.id

/-- **A sound row is what its own record says.** -/
theorem patch_toPatch_ofMemo (h : r.IsSound) (options : ImportOptions) :
    r.patch ((MemoRecord.ofMemo r.memo).toPatch r.id options) = r := by
  have same := MemoRecord.patch_toPatch_ofMemo h.memo r.id options
  calc r.patch ((MemoRecord.ofMemo r.memo).toPatch r.id options)
      = (ofMemo r.id r.memo).patch ((MemoRecord.ofMemo r.memo).toPatch r.id options) := by
        rw [h.isWritten.ofMemo_memo]
    _ = ofMemo r.id r.memo := by rw [patch_ofMemo, same]
    _ = r := h.isWritten.ofMemo_memo

end MemoRow.IsSound

end MemoTransfer
