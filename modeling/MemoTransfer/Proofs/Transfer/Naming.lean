import Mathlib.Data.String.Basic
import MemoTransfer.Proofs.Calendar.Order
import MemoTransfer.Transfer.Export

/-!
# The names of exports

An export is named for the moment when it is taken. Among the moments of the years 0 to 9999 the
names are of one form and one length, and they differ in the digits of day and time alone, so a list
of them in the order of texts is one in the order of time (`exportFilename_sorts`): the name of a
later second comes later (`exportFilename_lt`).
-/

namespace MemoTransfer

open MemoTransfer.Calendar

variable {a b : Instant}

/-- The form of the name of an export: eight digits for the day and six for the time of day. -/
def IsExportName (name : String) : Prop :=
  ∃ day time : List Char, name = "memos_export_" ++ String.ofList (day ++ '_' :: time) ++ ".json" ∧
    (day.length = 8 ∧ ∀ c ∈ day, c.isDigit = true) ∧
    time.length = 6 ∧ ∀ c ∈ time, c.isDigit = true

theorem isExportName_exportFilename (ha : a.IsCommon) : IsExportName (exportFilename a) := by
  have day := Instant.isPadded_dayDigits ha
  have time := a.isPadded_timeDigits
  refine ⟨a.dayDigits, a.timeDigits, ?_, ⟨day.length, day.digits⟩, time.length, time.digits⟩
  rw [exportFilename, a.compactDigits_eq]

theorem toList_exportFilename (t : Instant) : (exportFilename t).toList =
    "memos_export_".toList ++ (t.compactDigits ++ ".json".toList) := by
  rw [exportFilename, String.toList_append, String.toList_append,
    String.toList_ofList (l := t.compactDigits), List.append_assoc]

/-- **An export of a later second has a later name.** -/
theorem exportFilename_lt (ha : a.IsCommon) (hb : b.IsCommon) (h : a.seconds < b.seconds) :
    exportFilename a < exportFilename b := by
  have len := (Instant.length_compactDigits ha).trans (Instant.length_compactDigits hb).symm
  have digits := Instant.compactDigits_lt ha hb h
  rw [String.lt_iff_toList_lt, toList_exportFilename, toList_exportFilename]
  exact List.append_left_lt (Number.append_lt_append len digits _ _)

theorem exportFilename_congr (ha : a.IsCommon) (hb : b.IsCommon) (h : a.seconds = b.seconds) :
    exportFilename a = exportFilename b := by
  rw [exportFilename, exportFilename, Instant.compactDigits_congr ha hb h]

/-- **The names of exports sort by time.** They are the same within a second only. -/
theorem exportFilename_sorts (ha : a.IsCommon) (hb : b.IsCommon) :
    IsExportName (exportFilename a) ∧ (a ≤ b → exportFilename a ≤ exportFilename b) ∧
      (exportFilename a = exportFilename b ↔ a.seconds = b.seconds) := by
  refine ⟨isExportName_exportFilename ha, ?_, ?_, exportFilename_congr ha hb⟩
  · intro h
    rcases Instant.le_iff.1 h with earlier | ⟨same, -⟩
    · exact (exportFilename_lt ha hb earlier).le
    · exact (exportFilename_congr ha hb same).le
  · intro same
    rcases Int.lt_trichotomy a.seconds b.seconds with earlier | second | later
    · exact absurd same (exportFilename_lt ha hb earlier).ne
    · exact second
    · exact absurd same (exportFilename_lt hb ha later).ne'

/-- The last second of a leap day at the end of a cycle of the calendar, and the next one. -/
theorem exportFilename_sorts_leapDay :
    (Instant.ofUnix 951868799).IsCommon ∧ (Instant.ofUnix 951868800).IsCommon ∧
      IsExportName (exportFilename (.ofUnix 951868799)) ∧
      exportFilename (.ofUnix 951868799) ≤ exportFilename (.ofUnix 951868800) ∧
      exportFilename (.ofUnix 951868799) ≠ exportFilename (.ofUnix 951868800) := by
  have ha : (Instant.ofUnix 951868799).IsCommon := ⟨by decide, by decide, by decide⟩
  have hb : (Instant.ofUnix 951868800).IsCommon := ⟨by decide, by decide, by decide⟩
  have earlier : (Instant.ofUnix 951868799).seconds < (Instant.ofUnix 951868800).seconds := by
    decide
  obtain ⟨form, order, same⟩ := exportFilename_sorts ha hb
  exact ⟨ha, hb, form, order (.inl earlier), fun h => earlier.ne (same.1 h)⟩

example : exportFilename (.ofUnix 951868799) = "memos_export_20000229_235959.json" := by
  decide +kernel

end MemoTransfer
