import MemoTransfer.Proofs.Json.Extent
import MemoTransfer.Proofs.Json.Fields

/-!
# Objects that are no record

An object is flawed if one field comes twice in it, under whichever of its names, if a required
field does not come at all, or if the value of a field is flawed itself (`IsFlawed`). A record that
keeps track of the members it has read refuses every such object, wherever it stands
(`Record.IsStrict.not_accepts`): by induction over the members that lead to a draft, a field that
the draft holds does not come again, and one that does not come is not held.

The text of a value is spoiled if it has one member more than a form of the value, for a field that
comes, or one less, of a required field, or if the value of a member is spoiled in turn
(`IsSpoiled`). What is spoiled is flawed (`IsSpoiled.isFlawed`).
-/

namespace MemoTransfer.Json

open MemoTransfer.Utf8

variable {σ α β : Type}

/-! ## Names -/

namespace Entry

variable {e : Entry} {name : String}

theorem ReadAs.of_denotes (h : Denotes e.name name.toList) : e.ReadAs name :=
  ⟨[], [], Reader.stringBody_denotes h []⟩

theorem Names.mem {f : Field} (h : e.Names f) (read : e.ReadAs name) : name ∈ f.names := by
  obtain ⟨name', hname, hn⟩ := h
  obtain rfl := read.unique hname
  exact hn

theorem Avoids.not_mem {fields : List Field} (h : e.Avoids fields) (read : e.ReadAs name)
    {f : Field} (hf : f ∈ fields) : name ∉ f.names := by
  obtain ⟨name', hname, hn⟩ := h
  obtain rfl := read.unique hname
  exact hn f hf

end Entry

/-! ## Flaws -/

/-- The field comes twice among the members, under whichever of its names. -/
def Repeats (f : Field) (es : List Entry) : Prop :=
  ∃ e e', [e, e'].Sublist es ∧ e.Names f ∧ e'.Names f

/-- The field does not come among the members. -/
def Misses (f : Field) (es : List Entry) : Prop := ∀ e ∈ es, e.Avoids [f]

/-- The text of an object that repeats a field, or misses one that is required, or in which the
value of a field has a flaw, as `Within` says by the name of the field. -/
inductive IsFlawed (fields : List Field) (Within : String → Bytes → Prop) (bs : Bytes) : Prop
  | repeated {es : List Entry} {f : Field} (ho : IsObject es bs)
    (values : ∀ e ∈ es, IsValue e.value) (hf : f ∈ fields) (h : Repeats f es)
  | missing {es : List Entry} {f : Field} (ho : IsObject es bs)
    (values : ∀ e ∈ es, IsValue e.value) (hf : f ∈ fields) (required : f.isRequired = true)
    (h : Misses f es)
  | within {es : List Entry} {e : Entry} {f : Field} (ho : IsObject es bs)
    (values : ∀ e ∈ es, IsValue e.value) (he : e ∈ es) (hf : f ∈ fields) (names : e.Names f)
    (h : Within f.name e.value)

namespace IsFlawed

variable {fields : List Field} {Within : String → Bytes → Prop} {bs : Bytes}

theorem exists_isObject (h : IsFlawed fields Within bs) :
    ∃ es, IsObject es bs ∧ ∀ e ∈ es, IsValue e.value := by
  cases h with
  | repeated ho values _ _ => exact ⟨_, ho, values⟩
  | missing ho values _ _ _ => exact ⟨_, ho, values⟩
  | within ho values _ _ _ _ => exact ⟨_, ho, values⟩

theorem isValue (h : IsFlawed fields Within bs) : IsValue bs := by
  obtain ⟨es, ho, values⟩ := h.exists_isObject
  exact .object values ho

end IsFlawed

/-- The text of a list with an item of the kind. -/
def HasItem (P : Bytes → Prop) (bs : Bytes) : Prop :=
  ∃ texts, IsList texts bs ∧ (∀ text ∈ texts, IsValue text) ∧ ∃ text ∈ texts, P text

theorem HasItem.mono {P Q : Bytes → Prop} {bs : Bytes} (h : HasItem P bs)
    (imp : ∀ text, P text → Q text) : HasItem Q bs := by
  obtain ⟨texts, hl, values, text, ht, hp⟩ := h
  exact ⟨texts, hl, values, text, ht, imp text hp⟩

theorem HasItem.written {layout : Layout} (hl : layout.Valid) {depth : Nat} {P : Bytes → Prop}
    {v : Value} {vs : List Value} (hv : v ∈ vs) (h : P (bytes (v.chars layout (depth + 1)))) :
    HasItem P (bytes ((Value.list vs).chars layout depth)) := by
  refine ⟨_, Value.isList_chars hl depth vs, fun text ht => ?_, _, List.mem_map_of_mem hv, h⟩
  obtain ⟨w, -, rfl⟩ := List.mem_map.1 ht
  exact Value.isValue_chars hl (depth + 1) w

/-! ## Spoiled forms -/

/-- The members are spoiled by one change: another member comes for a field that comes, or the
member of a required field is left out, or the value of a field is one that is spoiled, as `Within`
says by the name of the field. -/
inductive Spoils (fields : List Field) (Within : String → Bytes → Prop) :
    List Entry → List Entry → Prop
  | added (es es' : List Entry) {e e' : Entry} {f : Field} (he : e ∈ es ++ es') (hf : f ∈ fields)
    (names : e.Names f) (names' : e'.Names f) :
    Spoils fields Within (es ++ es') (es ++ e' :: es')
  | removed (es es' : List Entry) {e : Entry} {f : Field} (hf : f ∈ fields)
    (required : f.isRequired = true) (names : e.Names f) :
    Spoils fields Within (es ++ e :: es') (es ++ es')
  | within (es es' : List Entry) {e e' : Entry} {f : Field} (hf : f ∈ fields) (names : e.Names f)
    (names' : e'.Names f) (h : Within f.name e'.value) :
    Spoils fields Within (es ++ e :: es') (es ++ e' :: es')

/-- The text of an object whose members filled the slots before they were spoiled. -/
def IsSpoiled (slots : List Slot) (Within : String → Bytes → Prop) (bs : Bytes) : Prop :=
  ∃ es es', Fills (slots.map Slot.field) slots es ∧ Spoils (slots.map Slot.field) Within es es' ∧
    IsObject es' bs ∧ ∀ e ∈ es', IsValue e.value

theorem IsSpoiled.written {layout : Layout} (hl : layout.Valid) {depth : Nat} {slots : List Slot}
    {Within : String → Bytes → Prop} {es : List Entry} {ms : List (String × Value)}
    (fills : Fills (slots.map Slot.field) slots es)
    (spoils : Spoils (slots.map Slot.field) Within es (ms.map (Entry.written hl (depth + 1)))) :
    IsSpoiled slots Within (bytes ((Value.object ms).chars layout depth)) :=
  ⟨es, _, fills, spoils, Value.isObject_chars hl depth ms, Entry.isValue_written hl ms⟩

section Spoiled

variable {fields : List Field} {slots : List Slot} {es es' : List Entry} {e e' : Entry} {f : Field}

/-- **With another member for a field that comes, the field comes twice.** -/
theorem Repeats.of_added (he : e ∈ es ++ es') (names : e.Names f) (names' : e'.Names f) :
    Repeats f (es ++ e' :: es') := by
  rcases List.mem_append.1 he with he | he
  · exact ⟨e, e', (List.singleton_sublist.2 he).append (.cons_cons e' (List.nil_sublist es')),
      names, names'⟩
  · refine ⟨e', e, ?_, names', names⟩
    exact (List.Sublist.cons_cons e' (List.singleton_sublist.2 he)).trans
      (List.sublist_append_right es _)

namespace Fills

/-- A field that shares no name with a slot does not come. -/
theorem misses (h : Fills fields slots es) (hf : f ∈ fields)
    (apart : ∀ slot ∈ slots, ∀ name ∈ slot.field.names, name ∉ f.names) : Misses f es := by
  induction h with
  | nil => exact fun _ h => absurd h List.not_mem_nil
  | slot pick names _ _ ih =>
    obtain ⟨name, hname, hn⟩ := names
    have own := apart _ (pick.mem_iff.2 List.mem_cons_self) name hn
    refine List.forall_mem_cons.2 ⟨⟨name, hname, List.forall_mem_singleton.2 own⟩, ih ?_⟩
    exact fun slot hs => apart slot (pick.mem_iff.2 (List.mem_cons_of_mem _ hs))
  | unknown avoids _ ih =>
    obtain ⟨name, hname, hn⟩ := avoids
    exact List.forall_mem_cons.2 ⟨⟨name, hname, List.forall_mem_singleton.2 (hn f hf)⟩, ih apart⟩

/-- **Without the member of a slot, its field does not come.** -/
theorem misses_of_removed (h : Fills fields slots (es ++ e :: es'))
    (distinct : ((slots.map Slot.field).flatMap Field.names).Nodup) {slot : Slot}
    (hs : slot ∈ slots) (hf : slot.field ∈ fields) (names : e.Names slot.field) :
    Misses slot.field (es ++ es') := by
  obtain ⟨name, hname, hn⟩ := names
  have read := Entry.ReadAs.of_denotes hname
  -- with the removed member in front, the first step is that which it takes
  cases h.perm List.perm_middle with
  | @slot _ others filled _ _ pick names' _ further =>
    have parts := ((pick.map Slot.field).flatMap_right _).nodup_iff.1 distinct
    rw [List.map_cons, List.flatMap_cons, List.nodup_append] at parts
    have apart : ∀ slot ∈ others, ∀ name ∈ slot.field.names, name ∉ filled.field.names :=
      fun slot hs name hn own =>
        parts.2.2 name own name (List.mem_flatMap.2 ⟨_, List.mem_map_of_mem hs, hn⟩) rfl
    obtain rfl : slot = filled := by
      refine (List.mem_cons.1 (pick.mem_iff.1 hs)).resolve_right fun other => ?_
      exact apart slot other name hn (names'.mem read)
    exact further.misses hf apart
  | unknown avoids _ => exact absurd hn (avoids.not_mem read hf)

end Fills

/-- **What is spoiled is flawed.** -/
theorem IsSpoiled.isFlawed {Within Within' : String → Bytes → Prop} {bs : Bytes}
    (h : IsSpoiled slots Within bs) (distinct : ((slots.map Slot.field).flatMap Field.names).Nodup)
    (imp : ∀ name text, Within name text → Within' name text) :
    IsFlawed (slots.map Slot.field) Within' bs := by
  obtain ⟨_, _, fills, spoils, ho, values⟩ := h
  cases spoils with
  | added _ _ he hf names names' => exact .repeated ho values hf (.of_added he names names')
  | removed _ _ hf required names =>
    obtain ⟨slot, hs, rfl⟩ := List.mem_map.1 hf
    exact .missing ho values hf required (fills.misses_of_removed distinct hs hf names)
  | within _ _ hf _ names' spoiled =>
    exact .within ho values (List.mem_append_right _ List.mem_cons_self) hf names'
      (imp _ _ spoiled)

end Spoiled

/-! ## What is accepted -/

namespace Accepts

variable {r : Reader α} {text : Bytes}

/-- A value that was changed by a function had been read before. -/
theorem of_map {f : α → β} {w : β} (h : Accepts (do return f (← r)) text w) :
    ∃ v, Accepts r text v := by
  obtain ⟨space, rest, hs, hr, read⟩ := h
  obtain ⟨v, mid, hv, last⟩ := read.of_bind
  obtain ⟨-, rfl⟩ := last.of_pure
  exact ⟨v, space, mid, hs, hr, hv⟩

/-- An object in the place of an optional one. -/
theorem of_optional {es : List Entry} {o : Option α} (ho : IsObject es text)
    (h : Accepts (Reader.optional r) text o) : ∃ v, Accepts r text v := by
  obtain ⟨space, rest, hs, hr, read⟩ := h
  obtain ⟨inner, -, rfl⟩ := ho
  have read := (Reader.peek_yields hs (c := '\x7b') (by decide) _).next read
  rw [if_neg (by decide)] at read
  exact of_map (f := some) ⟨[], rest, allSpace_nil, hr, read⟩

/-- A list with an item that is not accepted is not accepted. -/
theorem not_hasItem {P : Bytes → Prop} (exact : IsExact r) (refused : ∀ text v, P text →
    ¬Accepts r text v) (h : HasItem P text) {vs : List α} : ¬Accepts (Reader.list r) text vs := by
  obtain ⟨texts, hl, values, item, hitem, flaw⟩ := h
  intro accepted
  have all := Accepts.list exact values hl accepted
  clear hl values accepted
  induction all with
  | nil => cases hitem
  | @cons text v _ _ first _ ih =>
    rcases List.mem_cons.1 hitem with rfl | hitem
    · exact refused item v flaw first
    · exact ih hitem

/-- What a whole text holds between white space was accepted. -/
theorem of_run (exact : IsExact r) (hv : IsValue text) {before after : Bytes}
    (hb : AllSpace before) (ha : AllSpace after) {v : α}
    (h : Reader.run r (before ++ (text ++ after)) = .ok v) : Accepts r text v := by
  obtain ⟨rest, read, -⟩ := Reader.yields_of_run h
  obtain rfl := exact text before after v rest hv hb ha.ends read
  exact ⟨before, _, hb, ha.ends, read⟩

end Accepts

/-! ## Strict records -/

/-- The record reads its members exactly and keeps track of those that it has read; it is built of
drafts that hold all that is required, and it reads no value of a member that has the flaw. -/
structure Record.IsStrict (r : Record σ α) (Within : String → Bytes → Prop) : Prop where
  distinct : r.IsDistinct
  exact : ∀ m ∈ r.members, ∀ d, IsExact (m.read d)
  blank : ∀ m ∈ r.members, m.isGiven r.blank = false
  tracks : ∀ m ∈ r.members, ∀ d, Ensures (m.read d) fun d' =>
    ∀ m' ∈ r.members, m'.isGiven d' = (decide (m'.name = m.name) || m'.isGiven d)
  required : ∀ m ∈ r.members, m.isRequired = true → ∀ d v, r.build d = .ok v → m.isGiven d = true
  within : ∀ m ∈ r.members, ∀ text, Within m.name text → ∀ d d', ¬Accepts (m.read d) text d'

section Strict

variable {r : Record σ α} {Within : String → Bytes → Prop} {m m' : Member σ} {e : Entry}
  {es : List Entry} {d d' : σ} {name : String}

namespace Record.IsStrict

variable (strict : r.IsStrict Within)

include strict

/-- The name of a member of a field leads to the member of the record. -/
theorem find?_eq (hm : m ∈ r.members) (read : e.ReadAs name) (names : e.Names m.field) :
    r.members.find? (·.answersTo name) = some m :=
  find?_of_mem strict.distinct hm (names.mem read)

theorem name_ne (hm : m ∈ r.members) (read : e.ReadAs name) (avoids : e.Avoids [m.field])
    (find : r.members.find? (·.answersTo name) = some m') : m.name ≠ m'.name := by
  intro same
  have own := find?_of_mem strict.distinct hm List.mem_cons_self
  have other := find?_of_mem strict.distinct (List.mem_of_find?_eq_some find) List.mem_cons_self
  have both : m.field.name = m'.field.name := same
  rw [both, other, Option.some.injEq] at own
  subst own
  have answers := List.find?_some find
  exact avoids.not_mem read (List.mem_singleton.2 rfl) (Member.answersTo_iff.1 answers)

theorem isGiven_of_accepts (hm : m ∈ r.members) (hm' : m' ∈ r.members) {text : Bytes}
    (h : Accepts (m'.read d) text d') :
    m.isGiven d' = (decide (m.name = m'.name) || m.isGiven d) := by
  obtain ⟨space, rest, -, -, read⟩ := h
  exact strict.tracks m' hm' d _ _ _ read m hm

/-- A field that the draft holds does not come again. -/
theorem not_names (hm : m ∈ r.members) (given : m.isGiven d = true) (h : Admits r d es d') :
    ∀ e ∈ es, ¬e.Names m.field := by
  induction h with
  | nil => exact fun _ h => absurd h List.not_mem_nil
  | known read find free accepts _ ih =>
    have found := List.mem_of_find?_eq_some find
    refine List.forall_mem_cons.2 ⟨fun names => ?_, ih ?_⟩
    · rw [strict.find?_eq hm read names, Option.some.injEq] at find
      rw [find, free] at given
      cases given
    · rw [strict.isGiven_of_accepts hm found accepts, given, Bool.or_true]
  | unknown read find _ ih =>
    refine List.forall_mem_cons.2 ⟨fun names => ?_, ih given⟩
    rw [strict.find?_eq hm read names] at find
    cases find

theorem not_repeats (hm : m ∈ r.members) (h : Admits r d es d') : ¬Repeats m.field es := by
  rintro ⟨e, e', twice, names, names'⟩
  induction h with
  | nil => cases twice
  | known read find _ accepts further ih =>
    cases twice with
    | cons _ twice => exact ih twice
    | cons_cons _ again =>
      rw [strict.find?_eq hm read names, Option.some.injEq] at find
      subst find
      have given := strict.isGiven_of_accepts hm hm accepts
      rw [decide_eq_true rfl, Bool.true_or] at given
      exact strict.not_names hm given further e' (List.singleton_sublist.1 again) names'
  | unknown read find _ ih =>
    cases twice with
    | cons _ twice => exact ih twice
    | cons_cons _ _ =>
      rw [strict.find?_eq hm read names] at find
      cases find

/-- A field that does not come is not held. -/
theorem isGiven_of_misses (hm : m ∈ r.members) (free : m.isGiven d = false)
    (h : Admits r d es d') (misses : Misses m.field es) : m.isGiven d' = false := by
  induction h with
  | nil => exact free
  | known read find _ accepts _ ih =>
    have ne := strict.name_ne hm read (misses _ List.mem_cons_self) find
    refine ih ?_ fun e he => misses e (List.mem_cons_of_mem _ he)
    rw [strict.isGiven_of_accepts hm (List.mem_of_find?_eq_some find) accepts,
      decide_eq_false ne, free, Bool.or_false]
  | unknown _ _ _ ih => exact ih free fun e he => misses e (List.mem_cons_of_mem _ he)

/-- The value of a field that comes was accepted. -/
theorem exists_accepts (hm : m ∈ r.members) (h : Admits r d es d') (he : e ∈ es)
    (names : e.Names m.field) : ∃ d d', Accepts (m.read d) e.value d' := by
  induction h with
  | nil => cases he
  | known read find _ accepts _ ih =>
    rcases List.mem_cons.1 he with rfl | he
    · rw [strict.find?_eq hm read names, Option.some.injEq] at find
      subst find
      exact ⟨_, _, accepts⟩
    · exact ih he
  | unknown read find _ ih =>
    rcases List.mem_cons.1 he with rfl | he
    · rw [strict.find?_eq hm read names] at find
      cases find
    · exact ih he

/-- **A strict record refuses every flawed object.** -/
theorem not_accepts {bs : Bytes} (h : IsFlawed r.fields Within bs) {v : α} :
    ¬Accepts r.reader bs v := by
  intro accepted
  cases h with
  | repeated ho values hf twice =>
    obtain ⟨m, hm, rfl⟩ := List.mem_map.1 hf
    obtain ⟨d, admits, -⟩ := Record.admits strict.exact ho values accepted
    exact strict.not_repeats hm admits twice
  | missing ho values hf required misses =>
    obtain ⟨m, hm, rfl⟩ := List.mem_map.1 hf
    obtain ⟨d, admits, build⟩ := Record.admits strict.exact ho values accepted
    have absent := strict.isGiven_of_misses hm (strict.blank m hm) admits misses
    rw [strict.required m hm required d v build] at absent
    cases absent
  | within ho values he hf names flaw =>
    obtain ⟨m, hm, rfl⟩ := List.mem_map.1 hf
    obtain ⟨d, admits, -⟩ := Record.admits strict.exact ho values accepted
    obtain ⟨d₁, d₂, read⟩ := strict.exists_accepts hm admits he names
    exact strict.within m hm _ flaw d₁ d₂ read

end Record.IsStrict

end Strict

end MemoTransfer.Json
