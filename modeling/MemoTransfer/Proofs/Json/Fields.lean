import MemoTransfer.Proofs.Json.Records

/-!
# Objects with fields

A kind of object has fields, of which some may go by a second name and some are required (`Field`).
An object with certain values has a slot for each field: which texts may stand for the value, and
whether the member may be left out (`Slot`). `IsForm slots` are the texts of such an object: its
members fill the slots in any order, among members with other names.

A record whose members read what the slots allow reads each of these texts as the same value
(`IsForm.gives`). A draft is given by the set of the fields that were read so far, so that their
order does not matter. A written object is such a text if its members fill the slots
(`IsForm.written`).
-/

namespace MemoTransfer.Json

open MemoTransfer.Utf8

variable {σ α β : Type}

/-! ## Fields -/

/-- A member that the objects of a kind have. -/
structure Field where
  name : String
  otherName : Option String
  isRequired : Bool
  deriving DecidableEq

namespace Field

/-- A field that is required. -/
def needed (name : String) : Field := ⟨name, none, true⟩

/-- A field that has a default. -/
def spare (name : String) : Field := ⟨name, none, false⟩

/-- The field with a second name. -/
def orNamed (f : Field) (otherName : String) : Field := { f with otherName := some otherName }

/-- The names of the field. -/
def names (f : Field) : List String := f.name :: f.otherName.toList

theorem nodup_name {fs : List Field} (h : (fs.flatMap names).Nodup) : (fs.map name).Nodup := by
  have sublist : (fs.map name).Sublist (fs.flatMap names) := by
    clear h
    induction fs with
    | nil => exact .slnil
    | cons f fs ih =>
      exact (ih.trans (List.sublist_append_right f.otherName.toList _)).cons_cons f.name
  exact h.sublist sublist

end Field

/-- The field that a member of a record is for. -/
def Member.field (m : Member σ) : Field := ⟨m.name, m.otherName, m.isRequired⟩

theorem Member.answersTo_iff {m : Member σ} {name : String} :
    m.answersTo name = true ↔ name ∈ m.field.names := by
  rw [Field.names, List.mem_cons, Option.mem_toList, answersTo, Bool.or_eq_true,
    decide_eq_true_eq, decide_eq_true_eq, eq_comm]
  rfl

namespace Record

/-- The fields of a record. -/
def fields (r : Record σ α) : List Field := r.members.map Member.field

/-- No two members of the record share a name. -/
def IsDistinct (r : Record σ α) : Prop := (r.fields.flatMap Field.names).Nodup

instance (r : Record σ α) : Decidable r.IsDistinct := inferInstanceAs (Decidable (List.Nodup _))

theorem find?_of_mem {ms : List (Member σ)}
    (distinct : ((ms.map Member.field).flatMap Field.names).Nodup) {m : Member σ} (hm : m ∈ ms)
    {name : String} (hn : name ∈ m.field.names) : ms.find? (·.answersTo name) = some m := by
  induction ms with
  | nil => cases hm
  | cons m' ms ih =>
    rw [List.map_cons, List.flatMap_cons, List.nodup_append] at distinct
    rcases List.mem_cons.1 hm with rfl | hm
    · exact List.find?_cons_of_pos (Member.answersTo_iff.2 hn)
    · have mem : name ∈ (ms.map Member.field).flatMap Field.names :=
        List.mem_flatMap.2 ⟨m.field, List.mem_map_of_mem hm, hn⟩
      have other : ¬m'.answersTo name = true := fun h =>
        distinct.2.2 name (Member.answersTo_iff.1 h) name mem rfl
      rw [List.find?_cons_of_neg (by simpa using other)]
      exact ih distinct.2.1 hm

theorem find?_eq_none {ms : List (Member σ)} {name : String}
    (h : ∀ f ∈ ms.map Member.field, name ∉ f.names) : ms.find? (·.answersTo name) = none :=
  List.find?_eq_none.2 fun _ hm answers =>
    h _ (List.mem_map_of_mem hm) (Member.answersTo_iff.1 answers)

end Record

/-- The member goes by a name of the field. -/
def Entry.Names (e : Entry) (f : Field) : Prop :=
  ∃ name : String, Denotes e.name name.toList ∧ name ∈ f.names

/-- The member goes by a name that none of the fields has. -/
def Entry.Avoids (e : Entry) (fields : List Field) : Prop :=
  ∃ name : String, Denotes e.name name.toList ∧ ∀ f ∈ fields, name ∉ f.names

/-! ## Slots -/

/-- A field of an object with certain values. -/
structure Slot where
  field : Field
  /-- What may stand for its value. -/
  value : Bytes → Prop
  /-- The member may be left out. -/
  mayMiss : Prop

/-- The members of an object fill the slots, in any order. The names of other members are not those
of any of the fields. -/
inductive Fills (fields : List Field) : List Slot → List Entry → Prop
  | nil {slots : List Slot} (h : ∀ slot ∈ slots, slot.mayMiss) : Fills fields slots []
  | slot {slots others : List Slot} {slot : Slot} {e : Entry} {es : List Entry}
    (pick : slots.Perm (slot :: others)) (names : e.Names slot.field) (value : slot.value e.value)
    (further : Fills fields others es) : Fills fields slots (e :: es)
  | unknown {slots : List Slot} {e : Entry} {es : List Entry} (avoids : e.Avoids fields)
    (further : Fills fields slots es) : Fills fields slots (e :: es)

/-- The text of an object whose members fill the slots. -/
def IsForm (slots : List Slot) (bs : Bytes) : Prop :=
  ∃ es, IsObject es bs ∧ (∀ e ∈ es, IsValue e.value) ∧ Fills (slots.map Slot.field) slots es

namespace Fills

variable {fields : List Field} {slots : List Slot} {es es' : List Entry}

/-- No slot is left. -/
theorem done : Fills fields [] [] := .nil fun _ h => absurd h List.not_mem_nil

/-- **The order of the members does not matter.** -/
theorem perm (h : Fills fields slots es) (hp : es.Perm es') : Fills fields slots es' := by
  induction hp generalizing slots with
  | nil => exact h
  | cons _ _ ih =>
    cases h with
    | slot pick names value further => exact .slot pick names value (ih further)
    | unknown avoids further => exact .unknown avoids (ih further)
  | swap _ _ es =>
    cases h with
    | slot pick names value further =>
      cases further with
      | slot pick' names' value' further =>
        refine .slot (pick.trans ((pick'.cons _).trans (.swap _ _ _))) names' value' ?_
        exact .slot (.refl _) names value further
      | unknown avoids' further => exact .unknown avoids' (.slot pick names value further)
    | unknown avoids further =>
      cases further with
      | slot pick' names' value' further =>
        exact .slot pick' names' value' (.unknown avoids further)
      | unknown avoids' further => exact .unknown avoids' (.unknown avoids further)
  | trans _ _ ih ih' => exact ih' (ih h)

/-- The next slot is filled. -/
theorem next {slot : Slot} {e : Entry} (names : e.Names slot.field) (value : slot.value e.value)
    (further : Fills fields slots es) : Fills fields (slot :: slots) (e :: es) :=
  .slot (.refl _) names value further

/-- The next slot is left out. -/
theorem skip {slot : Slot} (hm : slot.mayMiss) (h : Fills fields slots es) :
    Fills fields (slot :: slots) es := by
  induction h with
  | nil h => exact .nil (List.forall_mem_cons.2 ⟨hm, h⟩)
  | slot pick names value further ih =>
    exact .slot ((pick.cons _).trans (.swap _ _ _)) names value ih
  | unknown avoids _ ih => exact .unknown avoids ih

end Fills

/-! ## Texts of values -/

/-- The text of a number, `true` or `false` as it is written. -/
def IsWritten (v : Value) (bs : Bytes) : Prop := bs = bytes (v.chars .compact 0)

/-- The text of a list of which each item stands for the value in its place. -/
def IsListOf (P : β → Bytes → Prop) (vs : List β) (bs : Bytes) : Prop :=
  ∃ texts, List.Forall₂ P vs texts ∧ IsList texts bs

/-- The text of a value, or `null` if there is none. -/
def IsOptional (P : β → Bytes → Prop) (o : Option β) (bs : Bytes) : Prop :=
  match o with
  | some v => P v bs
  | none => bs = bytes ['n', 'u', 'l', 'l']

theorem IsWritten.gives {reader : Reader β} {value : Value} {v : β} {bs : Bytes}
    (h : IsWritten value bs) (gives : Gives reader (bytes (value.chars .compact 0)) v) :
    Gives reader bs v := by
  rw [h]
  exact gives

theorem IsListOf.gives {P : β → Bytes → Prop} {item : Reader β} {vs : List β} {bs : Bytes}
    (h : IsListOf P vs bs) (items : ∀ v ∈ vs, ∀ text, P v text → Gives item text v) :
    Gives (Reader.list item) bs vs := by
  obtain ⟨texts, each, hl⟩ := h
  refine .list ?_ hl
  clear hl
  induction each with
  | nil => exact .nil
  | cons first _ ih =>
    rw [List.forall_mem_cons] at items
    exact .cons (items.1 _ first) (ih items.2)

theorem IsOptional.gives {P : β → Bytes → Prop} {reader : Reader β} {o : Option β} {bs : Bytes}
    (h : IsOptional P o bs)
    (value : ∀ v ∈ o, ∀ text, P v text → Gives (.optional reader) text (some v)) :
    Gives (.optional reader) bs o := by
  cases o with
  | none =>
    obtain rfl := h
    exact .null
  | some v => exact value v rfl bs h

theorem SpellsText.optional {s : String} {reader : Reader β} {v : β} {bs : Bytes}
    (h : SpellsText s bs) (gives : Gives reader bs v) : Gives (.optional reader) bs (some v) := by
  obtain ⟨body, -, rfl⟩ := h
  exact gives.optional (by decide) (by decide)

theorem IsForm.optional {slots : List Slot} {reader : Reader β} {v : β} {bs : Bytes}
    (h : IsForm slots bs) (gives : Gives reader bs v) : Gives (.optional reader) bs (some v) := by
  obtain ⟨es, ⟨inner, -, rfl⟩, -, -⟩ := h
  exact gives.optional (c := '\x7b') (by decide) (by decide)

/-! ## What is read -/

/-- The value, if it is given. -/
def ifGiven (given : Bool) (v : β) : Option β := if given then some v else none

theorem getD_ifGiven {given : Bool} {v d : β} (h : given = true ∨ v = d) :
    (ifGiven given v).getD d = v := by
  cases given with
  | true => rfl
  | false => exact (h.resolve_left Bool.false_ne_true).symm

theorem needed_ifGiven {given : Bool} {v : β} (h : given = true ∨ False) (name : String) :
    needed name (ifGiven given v) = .ok v := by
  rw [h.resolve_right id]
  rfl

/-- The member reads the texts of the slot: a draft that holds the values of some fields, and not of
this one, is read on to the one that holds its value as well. -/
structure Steps (fill : (String → Bool) → σ) (m : Member σ) (slot : Slot) : Prop where
  field : m.field = slot.field
  free : ∀ given, given m.name = false → m.isGiven (fill given) = false
  reads : ∀ given text, slot.value text →
    Gives (m.read (fill given)) text (fill fun name => name = m.name || given name)

namespace Steps

variable {fill : (String → Bool) → σ}

theorem of {name : String} {reader : Reader β} {get : σ → Option β} {put : σ → β → σ}
    {isRequired : Bool} {v : β} {value : Bytes → Prop} {mayMiss : Prop}
    (free : ∀ given, get (fill given) = ifGiven (given name) v)
    (step : ∀ given, put (fill given) v = fill fun name' => name' = name || given name')
    (reads : ∀ text, value text → Gives reader text v) :
    Steps fill (.of name reader get put isRequired) ⟨⟨name, none, isRequired⟩, value, mayMiss⟩ where
  field := rfl
  free given h := by
    have h : given name = false := h
    show (get (fill given)).isSome = false
    rw [free, h]
    rfl
  reads given text h := step given ▸ (reads text h).map

theorem orNamed {m : Member σ} {name : String} {isRequired : Bool} {value : Bytes → Prop}
    {mayMiss : Prop} (h : Steps fill m ⟨⟨name, none, isRequired⟩, value, mayMiss⟩)
    (otherName : String) :
    Steps fill (m.orNamed otherName) ⟨⟨name, some otherName, isRequired⟩, value, mayMiss⟩ where
  field := by
    have field := h.field
    rw [Member.field, Field.mk.injEq] at field
    rw [Member.field, Field.mk.injEq]
    exact ⟨field.1, rfl, field.2.2⟩
  free := h.free
  reads := h.reads

theorem fields_eq {ms : List (Member σ)} {slots : List Slot}
    (h : List.Forall₂ (Steps fill) ms slots) : ms.map Member.field = slots.map Slot.field := by
  induction h with
  | nil => rfl
  | cons first _ ih => rw [List.map_cons, List.map_cons, first.field, ih]

theorem exists_mem {ms : List (Member σ)} {slots : List Slot}
    (h : List.Forall₂ (Steps fill) ms slots) {slot : Slot} (hs : slot ∈ slots) :
    ∃ m ∈ ms, Steps fill m slot := by
  induction h with
  | nil => cases hs
  | @cons m slot' ms slots first _ ih =>
    rcases List.mem_cons.1 hs with rfl | hs
    · exact ⟨m, List.mem_cons_self, first⟩
    · obtain ⟨m', hm, step⟩ := ih hs
      exact ⟨m', List.mem_cons_of_mem m hm, step⟩

end Steps

section Forms

variable {r : Record σ α} {fill : (String → Bool) → σ} {slots : List Slot} {es : List Entry}

/-- The members lead from a draft without the slots to one that holds all that were filled. -/
theorem Fills.leads (distinct : r.IsDistinct) (steps : ∀ slot ∈ slots, ∃ m ∈ r.members,
      Steps fill m slot) (nodup : (slots.map fun slot => slot.field.name).Nodup)
    (values : ∀ e ∈ es, IsValue e.value) (h : Fills r.fields slots es) (given : String → Bool)
    (free : ∀ slot ∈ slots, given slot.field.name = false) :
    ∃ given' : String → Bool, Leads r (fill given) es (fill given') ∧
      (∀ name, given name = true → given' name = true) ∧
      ∀ slot ∈ slots, given' slot.field.name = true ∨ slot.mayMiss := by
  induction h generalizing given with
  | nil h => exact ⟨given, .nil _, fun _ h => h, fun slot hs => .inr (h slot hs)⟩
  | @slot slots others slot e es pick names value _ ih =>
    obtain ⟨m, hm, step⟩ := steps slot (pick.mem_iff.2 List.mem_cons_self)
    obtain ⟨name, hname, hn⟩ := names
    have name_eq : m.name = slot.field.name := congrArg Field.name step.field
    have nodup := (pick.map fun slot => slot.field.name).nodup_iff.1 nodup
    rw [List.map_cons, List.nodup_cons] at nodup
    obtain ⟨given', leads, kept, filled⟩ := ih
      (fun s hs => steps s (pick.mem_iff.2 (List.mem_cons_of_mem slot hs))) nodup.2
      (fun e he => values e (List.mem_cons_of_mem _ he))
      (fun name => name = m.name || given name) fun s hs => by
        have ne : s.field.name ≠ m.name := fun e =>
          nodup.1 (name_eq ▸ e ▸ List.mem_map_of_mem hs)
        rw [decide_eq_false ne, Bool.false_or]
        exact free s (pick.mem_iff.2 (List.mem_cons_of_mem slot hs))
    have unread : given m.name = false :=
      name_eq ▸ free slot (pick.mem_iff.2 List.mem_cons_self)
    refine ⟨given', .known hname (Record.find?_of_mem distinct hm (step.field ▸ hn))
      (step.free given unread) (step.reads given _ value) leads, fun name h => ?_, fun s hs => ?_⟩
    · exact kept name (by simp [h])
    · rcases List.mem_cons.1 (pick.mem_iff.1 hs) with rfl | hs
      · exact .inl (kept _ (by simp [name_eq]))
      · exact filled s hs
  | unknown avoids _ ih =>
    rw [List.forall_mem_cons] at values
    obtain ⟨name, hname, hn⟩ := avoids
    obtain ⟨given', leads, rest⟩ := ih steps nodup values.2 given free
    exact ⟨given', .unknown hname (Record.find?_eq_none hn) values.1 leads, rest⟩

/-- **Every form of a value is read as the value.** -/
theorem IsForm.gives (fill : (String → Bool) → σ) {v : α} (distinct : r.IsDistinct)
    (steps : List.Forall₂ (Steps fill) r.members slots) (blank : fill (fun _ => false) = r.blank)
    (build : ∀ given : String → Bool,
      (∀ slot ∈ slots, given slot.field.name = true ∨ slot.mayMiss) → r.build (fill given) = .ok v)
    {bs : Bytes} (h : IsForm slots bs) : Gives r.reader bs v := by
  obtain ⟨es, ho, values, fills⟩ := h
  have fields : r.fields = slots.map Slot.field := Steps.fields_eq steps
  have nodup : (slots.map fun slot => slot.field.name).Nodup := by
    have names := Field.nodup_name distinct
    rwa [fields, List.map_map] at names
  obtain ⟨given, leads, -, filled⟩ := Fills.leads distinct (fun _ => Steps.exists_mem steps) nodup
    values (fields ▸ fills) (fun _ => false) fun _ _ => rfl
  rw [blank] at leads
  exact Record.gives leads (build given filled) ho

end Forms

/-! ## Written objects -/

section Written

variable {layout : Layout} {depth : Nat}

theorem isWritten_boolean (b : Bool) (layout : Layout) (depth : Nat) :
    IsWritten (.boolean b) (bytes ((Value.boolean b).chars layout depth)) := by
  cases b <;> rw [IsWritten, Value.chars, Value.chars]

theorem isWritten_integer (n : Int) (layout : Layout) (depth : Nat) :
    IsWritten (.integer n) (bytes ((Value.integer n).chars layout depth)) := by
  rw [IsWritten, Value.chars, Value.chars]

theorem isWritten_floating (x : Number.Binary64) (layout : Layout) (depth : Nat) :
    IsWritten (.floating x) (bytes ((Value.floating x).chars layout depth)) := by
  rw [IsWritten, Value.chars, Value.chars]

theorem isListOf_chars (hl : layout.Valid) {P : β → Bytes → Prop} {toJson : β → Value}
    {vs : List β} (h : ∀ v ∈ vs, P v (bytes ((toJson v).chars layout (depth + 1)))) :
    IsListOf P vs (bytes ((Value.list (vs.map toJson)).chars layout depth)) := by
  refine ⟨_, ?_, Value.isList_chars hl depth _⟩
  rw [List.map_map, List.forall₂_map_right_iff, List.forall₂_same]
  exact h

theorem Entry.names_written (hl : layout.Valid) {name : String} {v : Value} {f : Field}
    (h : name ∈ f.names) : (Entry.written hl depth (name, v)).Names f :=
  ⟨name, denotes_written hl depth name v, h⟩

theorem Entry.isValue_written (hl : layout.Valid) (ms : List (String × Value)) :
    ∀ e ∈ ms.map (Entry.written hl depth), IsValue e.value := by
  intro e he
  obtain ⟨m, -, rfl⟩ := List.mem_map.1 he
  exact Value.isValue_chars hl depth m.2

/-- A written object is a form of a value if its members fill the slots. -/
theorem IsForm.written (hl : layout.Valid) {slots : List Slot} {ms : List (String × Value)}
    (h : Fills (slots.map Slot.field) slots (ms.map (Entry.written hl (depth + 1)))) :
    IsForm slots (bytes ((Value.object ms).chars layout depth)) :=
  ⟨_, Value.isObject_chars hl depth ms, Entry.isValue_written hl ms, h⟩

namespace Fills

variable {fields : List Field} {slots : List Slot} {es : List Entry} {name : String}

/-- A member that is written. -/
theorem written (hl : layout.Valid) {slot : Slot} {v : Value} (names : name ∈ slot.field.names)
    (value : slot.value (bytes (v.chars layout depth))) (further : Fills fields slots es) :
    Fills fields (slot :: slots) (Entry.written hl depth (name, v) :: es) :=
  .next (Entry.names_written hl names) value further

/-- A member that is written only if there is a value for it. -/
theorem ifSome (hl : layout.Valid) {P : β → Bytes → Prop} {toJson : β → Value} {o : Option β}
    {f : Field} (names : name ∈ f.names)
    (value : ∀ v ∈ o, P v (bytes ((toJson v).chars layout depth)))
    (further : Fills fields slots es) :
    Fills fields (⟨f, IsOptional P o, o = none⟩ :: slots)
      ((o.map fun v => (name, toJson v)).toList.map (Entry.written hl depth) ++ es) := by
  cases o with
  | none => exact further.skip rfl
  | some v => exact .written hl names (value v rfl) further

end Fills

end Written

end MemoTransfer.Json
