import MemoTransfer.Json.Printer
import MemoTransfer.Json.Reader.Record
import MemoTransfer.Memo.Basic

/-!
# Written payloads

The JSON form in which the payload of a memo is stored. Every member has a default, so that an older
payload with fewer members is read as well.
-/

namespace MemoTransfer

open MemoTransfer.Json MemoTransfer.Number

namespace Location

/-- The written form of a location. -/
def toJson (l : Location) : Value :=
  .object [("placeholder", .text l.placeholder), ("latitude", .floating l.latitude),
    ("longitude", .floating l.longitude)]

/-- The parts of a location found so far. -/
structure Draft where
  placeholder : Option String := none
  latitude : Option Binary64 := none
  longitude : Option Binary64 := none

/-- How a location is read. -/
def record : Record Draft Location where
  title := "struct Location"
  members :=
    [.of "placeholder" .text Draft.placeholder (fun d v => { d with placeholder := some v }) false,
     .of "latitude" .floating Draft.latitude (fun d v => { d with latitude := some v }) false,
     .of "longitude" .floating Draft.longitude (fun d v => { d with longitude := some v }) false]
  blank := {}
  build d := .ok ⟨d.placeholder.getD "", d.latitude.getD .zero, d.longitude.getD .zero⟩

end Location

namespace Property

/-- The written form of a property. -/
def toJson (p : Property) : Value :=
  .object [("has_link", .boolean p.hasLink), ("has_task_list", .boolean p.hasTaskList),
    ("has_code", .boolean p.hasCode), ("has_incomplete_tasks", .boolean p.hasIncompleteTasks)]

/-- The parts of a property found so far. -/
structure Draft where
  hasLink : Option Bool := none
  hasTaskList : Option Bool := none
  hasCode : Option Bool := none
  hasIncompleteTasks : Option Bool := none

/-- How a property is read. -/
def record : Record Draft Property where
  title := "struct MemoProperty"
  members :=
    [.of "has_link" .boolean Draft.hasLink (fun d v => { d with hasLink := some v }) false,
     .of "has_task_list" .boolean Draft.hasTaskList (fun d v => { d with hasTaskList := some v })
       false,
     .of "has_code" .boolean Draft.hasCode (fun d v => { d with hasCode := some v }) false,
     .of "has_incomplete_tasks" .boolean Draft.hasIncompleteTasks
       (fun d v => { d with hasIncompleteTasks := some v }) false]
  blank := {}
  build d := .ok ⟨d.hasLink.getD false, d.hasTaskList.getD false, d.hasCode.getD false,
    d.hasIncompleteTasks.getD false⟩

end Property

namespace Payload

/-- The written form of a payload; an absent location is left out. -/
def toJson (p : Payload) : Value :=
  .object ([("tags", .texts p.tags), ("property", p.property.toJson)] ++
    (p.location.map fun l => ("location", l.toJson)).toList)

/-- The parts of a payload found so far. -/
structure Draft where
  tags : Option (List String) := none
  property : Option Property := none
  location : Option (Option Location) := none

/-- How a payload is read. -/
def record : Record Draft Payload where
  title := "struct MemoPayload"
  members :=
    [.of "tags" (.list .text) Draft.tags (fun d v => { d with tags := some v }) false,
     .of "property" Property.record.reader Draft.property
       (fun d v => { d with property := some v }) false,
     .of "location" (.optional Location.record.reader) Draft.location
       (fun d v => { d with location := some v }) false]
  blank := {}
  build d := .ok ⟨d.tags.getD [], d.property.getD .plain, d.location.getD none⟩

/-- The payload as it is stored. -/
def write (p : Payload) : String := p.toJson.compact

/-- Reads a stored payload; a text that is none stands for the empty one. -/
def read (s : String) : Payload :=
  match record.reader.run (Utf8.encode s) with
  | .ok p => p
  | .error _ => empty

end Payload

/-- Reads the name of a visibility. -/
def Visibility.reader : Reader Visibility := .oneOf Visibility.all

end MemoTransfer
