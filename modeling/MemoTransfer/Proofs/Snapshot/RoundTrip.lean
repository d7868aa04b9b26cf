import MemoTransfer.Proofs.Snapshot.Documents

/-!
# Snapshots are read back

Decoding a document that holds a snapshot gives the snapshot (`Snapshot.decode_of_isDocument`), and
so does decoding the bytes of a snapshot, in every part of every record (`Snapshot.decode_encode`).
The only condition is that the coordinates are finite: another number is written as `null`.
-/

namespace MemoTransfer.Snapshot

open MemoTransfer.Json MemoTransfer.Calendar MemoTransfer.Utf8

theorem decode_of_run {bs : Bytes} {s : Snapshot} (h : Reader.run record.reader bs = .ok s) :
    decode bs = .ok s := by
  rw [decode, h]
  rfl

theorem run_of_decode {bs : Bytes} {s : Snapshot} (h : decode bs = .ok s) :
    Reader.run record.reader bs = .ok s := by
  unfold decode at h
  cases hr : Reader.run record.reader bs with
  | error e =>
    rw [hr] at h
    cases h
  | ok s' =>
    rw [hr] at h
    cases h
    rfl

/-- The only error of decoding is that the bytes are no snapshot. -/
theorem decode_cases (bs : Bytes) :
    (∃ s, decode bs = .ok s) ∨ ∃ fault, decode bs = .error (.malformedSnapshot fault) := by
  unfold decode
  cases Reader.run record.reader bs with
  | error fault => exact .inr ⟨fault, rfl⟩
  | ok s => exact .inl ⟨s, rfl⟩

/-- **Whatever document holds a snapshot is decoded as it.** -/
theorem decode_of_isDocument {s : Snapshot} (hs : s.IsFinite) {bs : Bytes}
    (h : s.IsDocument bs) : decode bs = .ok s :=
  decode_of_run (run_of_isDocument hs h)

/-- The reader of snapshots gives back what was encoded. -/
theorem run_encode {s : Snapshot} (h : s.IsFinite) :
    Reader.run record.reader s.encode = .ok s :=
  run_of_isDocument h (isDocument_encode s)

/-- **Decoding what was encoded gives the snapshot.** -/
theorem decode_encode (s : Snapshot) (h : s.IsFinite) : decode s.encode = .ok s :=
  decode_of_run (run_encode h)

/-- A snapshot of a leap second, with a record from the first to the last moment that there is. -/
def sample : Snapshot where
  version := "1.0 \"\u00e9\""
  exportedAt := ⟨1483228799, 1500000000, by decide, by decide, by decide, by decide⟩
  records := [{
    uid := "a\n"
    content := "- [ ] caf\u00e9 \x01"
    visibility := ""
    pinned := true
    createdAt := ⟨firstSecond, 120000000, by decide, by decide, by decide, by decide⟩
    updatedAt := ⟨lastSecond, 7, by decide, by decide, by decide, by decide⟩
    displayTime := some .epoch
    tags := ["", "x/y"]
    location := some ⟨"here", ⟨0x8000000000000000⟩, ⟨0x3FB999999999999A⟩⟩
    attachments := [⟨"f", "f.png", "image/png", -9223372036854775808⟩]
    relations := [⟨"b", "COMMENT"⟩] }]

theorem decode_encode_sample : sample.IsFinite ∧ decode sample.encode = .ok sample :=
  ⟨by decide, decode_encode sample (by decide)⟩

end MemoTransfer.Snapshot
