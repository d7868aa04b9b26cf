import MemoTransfer.Json.Reader.Record
import MemoTransfer.Proofs.Json.Lists
import MemoTransfer.Proofs.Json.Skipping

/-!
# Records

The members of an object lead from one draft of a record to another (`Leads`): a member with a known
name, which the draft does not hold yet, by its value, and any other member not at all. An object
whose members lead from the blank draft to a draft is read as what is built of that draft
(`Record.gives`), whatever their order and the white space between them.

A written object is such a text, in every valid layout (`Value.isObject_chars`), and every written
value is a JSON text (`Value.isValue_chars`).
-/

namespace MemoTransfer.Json

open MemoTransfer.Utf8

variable {σ α : Type} {r : Record σ α} {layout : Layout}

/-! ## Objects -/

/-- Reading a member by its name leads from a draft to another one, and so on over the members. -/
inductive Gathers (read : σ → String → Reader σ) : σ → List Entry → σ → Prop
  | nil (d : σ) : Gathers read d [] d
  | cons {d d' d'' : σ} {e : Entry} {es : List Entry} {name : String}
    (hn : Denotes e.name name.toList)
    (first : ∀ rest, EndsNumeral rest →
      Yields (read d name) (e.gap ++ byteOf ':' :: (e.space ++ (e.value ++ rest))) d' rest)
    (further : Gathers read d' es d'') : Gathers read d (e :: es) d''

/-- The members lead from a draft to another one. -/
inductive Leads (r : Record σ α) : σ → List Entry → σ → Prop
  | nil (d : σ) : Leads r d [] d
  | known {d d' d'' : σ} {e : Entry} {es : List Entry} {name : String} {m : Member σ}
    (hn : Denotes e.name name.toList) (find : r.members.find? (·.answersTo name) = some m)
    (free : m.isGiven d = false) (gives : Gives (m.read d) e.value d')
    (further : Leads r d' es d'') : Leads r d (e :: es) d''
  | unknown {d d' : σ} {e : Entry} {es : List Entry} {name : String}
    (hn : Denotes e.name name.toList) (find : r.members.find? (·.answersTo name) = none)
    (value : IsValue e.value) (further : Leads r d es d') : Leads r d (e :: es) d'

theorem Entry.begins_text (e : Entry) : Begins e.text := ⟨'"', _, rfl, by decide⟩

namespace Reader

theorem memberName_end {isFirst : Bool} {bs : Bytes} (h : Parts isFirst [] bs) (rest : Bytes) :
    Yields (memberName isFirst) (bs ++ byteOf '}' :: rest) none (byteOf '}' :: rest) :=
  (moreMembers_end h rest).bind (.pure _ _)

theorem memberName_entry {isFirst : Bool} {e : Entry} {parts : List Bytes} {bs : Bytes}
    {name : String} (h : Parts isFirst (e.text :: parts) bs) (hn : Denotes e.name name.toList)
    (rest : Bytes) :
    ∃ bs', Parts false parts bs' ∧
      Yields (memberName isFirst) (bs ++ byteOf '}' :: rest) (some name)
        (e.gap ++ byteOf ':' :: (e.space ++ (e.value ++ (bs' ++ byteOf '}' :: rest)))) := by
  obtain ⟨bs', further, -, more⟩ := moreMembers_part h rest
  refine ⟨bs', further, more.bind ((advance_yields _ _).bind ?_)⟩
  simp only [List.append_assoc, List.cons_append]
  exact (stringBody_denotes hn _).bind (.pure _ _)

theorem readMember_known {d d' : σ} {e : Entry} {name : String} {m : Member σ}
    (find : r.members.find? (·.answersTo name) = some m) (free : m.isGiven d = false)
    (gives : Gives (m.read d) e.value d') {rest : Bytes} (hr : EndsNumeral rest) :
    Yields (r.readMember d name) (e.gap ++ byteOf ':' :: (e.space ++ (e.value ++ rest))) d'
      rest := by
  unfold Record.readMember
  rw [find]
  simp only [free, Bool.false_eq_true, ↓reduceIte]
  exact (colon_yields e.allSpace_gap _).bind (gives.yields _ _ e.allSpace_space hr)

theorem readMember_unknown {d : σ} {e : Entry} {name : String}
    (find : r.members.find? (·.answersTo name) = none) (value : IsValue e.value) {rest : Bytes}
    (hr : EndsNumeral rest) :
    Yields (r.readMember d name) (e.gap ++ byteOf ':' :: (e.space ++ (e.value ++ rest))) d
      rest := by
  unfold Record.readMember
  rw [find]
  exact (colon_yields e.allSpace_gap _).bind
    ((value.skipped.yields _ _ e.allSpace_space hr).bind (.pure _ _))

variable {read : σ → String → Reader σ} {d d' : σ} {es : List Entry}

/-- The members of an object, up to its closing brace. -/
theorem members_go_gathers (h : Gathers read d es d') {isFirst : Bool} {bs : Bytes}
    (hp : Parts isFirst (es.map Entry.text) bs) {n : Nat} (hn : es.length < n) (rest : Bytes) :
    Yields (members.go read n isFirst d) (bs ++ byteOf '}' :: rest) d' (byteOf '}' :: rest) := by
  induction h generalizing n isFirst bs with
  | nil d =>
    obtain ⟨n, rfl⟩ : ∃ m, n = m + 1 := ⟨n - 1, by omega⟩
    exact (memberName_end hp rest).bind (.pure _ _)
  | cons hname first _ ih =>
    rw [List.length_cons] at hn
    obtain ⟨n, rfl⟩ : ∃ m, n = m + 1 := ⟨n - 1, by omega⟩
    obtain ⟨bs', further, name⟩ := memberName_entry hp hname rest
    have ends := further.endsNumeral (d := '}') (by decide) rest
    exact name.bind ((first _ ends).bind (ih further (by omega)))

theorem members_gathers (h : Gathers read d es d') {bs : Bytes}
    (hp : Parts true (es.map Entry.text) bs) (rest : Bytes) :
    Yields (members read d) (bs ++ byteOf '}' :: rest) d' (byteOf '}' :: rest) := by
  have enough := hp.length_le fun part hp => by
    obtain ⟨e, -, rfl⟩ := List.mem_map.1 hp
    exact e.begins_text
  rw [List.length_map] at enough
  refine (Yields.get _).bind (members_go_gathers h hp ?_ rest)
  simp only [List.length_append, List.length_cons]
  omega

/-- The members of an object are read only if its first one is. -/
theorem first_of_members {e : Entry} {parts : List Bytes} {name : String} {bs rest t : Bytes}
    (hp : Parts true (e.text :: parts) bs) (hn : Denotes e.name name.toList)
    (h : Yields (members read d) (bs ++ byteOf '}' :: rest) d' t) :
    ∃ rest' d₁ t₁, EndsNumeral rest' ∧
      Yields (read d name) (e.gap ++ byteOf ':' :: (e.space ++ (e.value ++ rest'))) d₁ t₁ := by
  have h := (Yields.get _).next h
  generalize (bs ++ byteOf '}' :: rest).length = n at h
  cases n with
  | zero => exact absurd h Yields.not_throw
  | succ n =>
    obtain ⟨bs', further, hname⟩ := memberName_entry hp hn rest
    obtain ⟨d₁, t₁, first, -⟩ := (hname.next h).of_bind
    exact ⟨_, d₁, t₁, further.endsNumeral (d := '}') (by decide) rest, first⟩

end Reader

theorem Leads.gathers {d d' : σ} {es : List Entry} (h : Leads r d es d') :
    Gathers r.readMember d es d' := by
  induction h with
  | nil d => exact .nil d
  | known hn find free gives _ ih =>
    exact .cons hn (fun _ hr => Reader.readMember_known find free gives hr) ih
  | unknown hn find value _ ih =>
    exact .cons hn (fun _ hr => Reader.readMember_unknown find value hr) ih

/-- **An object is read as what its members build.** -/
theorem Record.gives {es : List Entry} {d : σ} {v : α} (h : Leads r r.blank es d)
    (build : r.build d = .ok v) {bs : Bytes} (ho : IsObject es bs) : Gives r.reader bs v := by
  obtain ⟨inner, hi, rfl⟩ := ho
  refine ⟨⟨'\x7b', _, rfl, by decide⟩, fun space rest hs _ => ?_⟩
  simp only [List.cons_append, List.append_assoc, List.nil_append]
  refine (Reader.start_yields hs (by decide) _).bind ((Reader.advance_yields _ _).bind ?_)
  refine (Reader.members_gathers h.gathers hi rest).bind ?_
  exact (Yields.lift build _).bind ((Reader.advance_yields _ _).bind (.pure _ _))

/-! ## Written objects -/

/-- A member as a layout writes it. -/
def Entry.written (hl : layout.Valid) (depth : Nat) (member : String × Value) : Entry where
  name := bytes (member.1.toList.flatMap escapeChar)
  gap := []
  space := (bytes layout.colon).drop 1
  value := bytes (member.2.chars layout depth)
  isBody := (denotes_escapes _).isBody
  allSpace_gap := allSpace_nil
  allSpace_space := by
    obtain ⟨cs, e, hcs⟩ := hl.colon
    rw [e, bytes_cons (by decide)]
    exact hcs.allSpace

theorem Entry.denotes_written (hl : layout.Valid) (depth : Nat) (name : String) (v : Value) :
    Denotes (Entry.written hl depth (name, v)).name name.toList :=
  denotes_escapes _

theorem Entry.text_written (hl : layout.Valid) (depth : Nat) (name : String) (v : Value) :
    (Entry.written hl depth (name, v)).text =
      bytes (stringChars name) ++ (bytes layout.colon ++ bytes (v.chars layout depth)) := by
  obtain ⟨cs, e, -⟩ := hl.colon
  rw [bytes_stringChars, e, bytes_cons (by decide)]
  simp only [text, written, e, bytes_cons (c := ':') (by decide), List.nil_append,
    List.cons_append, List.append_assoc, List.drop_succ_cons, List.drop_zero]

theorem Value.parts_membersChars (hl : layout.Valid) (depth : Nat) (ms : List (String × Value))
    {gap : Bytes} (hgap : AllSpace gap) :
    Parts false ((ms.map (Entry.written hl depth)).map Entry.text)
      (bytes (membersChars layout depth ms) ++ gap) := by
  induction ms with
  | nil => exact .nil hgap
  | cons m ms ih =>
    obtain ⟨name, v⟩ := m
    rw [membersChars, List.map_cons, List.map_cons, Entry.text_written]
    simp only [List.cons_append, bytes_cons (c := ',') (by decide), bytes_append]
    have parts := @Parts.next [] _ (bytes (stringChars name) ++ (bytes layout.colon ++
      bytes (v.chars layout depth))) _ _ allSpace_nil (hl.newline depth).allSpace ih
    simpa only [List.append_assoc, List.nil_append] using parts

theorem Value.isObject_chars (hl : layout.Valid) (depth : Nat) (ms : List (String × Value)) :
    IsObject (ms.map (Entry.written hl (depth + 1)))
      (bytes ((Value.object ms).chars layout depth)) := by
  cases ms with
  | nil => exact ⟨[], .nil allSpace_nil, rfl⟩
  | cons m ms =>
    obtain ⟨name, v⟩ := m
    refine ⟨_, .first (hl.newline (depth + 1)).allSpace
      (parts_membersChars hl (depth + 1) ms (hl.newline depth).allSpace), ?_⟩
    rw [chars, Entry.text_written]
    simp only [List.cons_append, bytes_cons (c := '\x7b') (by decide), bytes_append,
      List.append_assoc]
    rfl

namespace Value

mutual

/-- **Every written value is a JSON text.** -/
theorem isValue_chars (hl : layout.Valid) (depth : Nat) :
    ∀ v : Value, IsValue (bytes (v.chars layout depth))
  | null => .word (by rw [chars]; decide)
  | boolean true => .word (by rw [chars]; decide)
  | boolean false => .word (by rw [chars]; decide)
  | integer n => by
    rw [chars, ← Numeral.chars_ofInt, Numeral.chars_eq_front]
    exact .number (Numeral.wellFormed_ofInt n) (spellsPower_powerChars _)
  | floating x => by
    rw [chars]
    by_cases h : x.isFinite = true
    · obtain ⟨n, hn, e, -⟩ := exists_numeral_of_isFinite h
      rw [← e, Numeral.chars_eq_front]
      exact .number hn (spellsPower_powerChars _)
    · rw [floatingChars, if_neg h]
      exact .word (by decide)
  | text s => by
    rw [chars, bytes_stringChars]
    exact .text (denotes_escapes _).isBody
  | list vs => by
    refine .list (fun bs h => ?_) (isList_chars hl depth vs)
    obtain ⟨v, hv, rfl⟩ := List.mem_map.1 h
    exact isValue_items hl (depth + 1) vs v hv
  | object ms => by
    refine .object (fun e h => ?_) (isObject_chars hl depth ms)
    obtain ⟨m, hm, rfl⟩ := List.mem_map.1 h
    exact isValue_members hl (depth + 1) ms m hm

theorem isValue_items (hl : layout.Valid) (depth : Nat) :
    ∀ vs : List Value, ∀ v ∈ vs, IsValue (bytes (v.chars layout depth))
  | [], _, h => absurd h List.not_mem_nil
  | v :: vs, w, h => by
    rcases List.mem_cons.1 h with e | h
    · rw [e]
      exact isValue_chars hl depth v
    · exact isValue_items hl depth vs w h

theorem isValue_members (hl : layout.Valid) (depth : Nat) :
    ∀ ms : List (String × Value), ∀ m ∈ ms, IsValue (bytes (m.2.chars layout depth))
  | [], _, h => absurd h List.not_mem_nil
  | (name, v) :: ms, m, h => by
    rcases List.mem_cons.1 h with e | h
    · rw [e]
      exact isValue_chars hl depth v
    · exact isValue_members hl depth ms m h

end

end Value

end MemoTransfer.Json
