import MemoTransfer.Proofs.Json.Ensures
import MemoTransfer.Proofs.Json.Records

/-!
# Where readers stop

Run on the text of a value, a reader may fail, but it does not stop inside the value or behind it:
each reader of one kind is exact (`IsExact`), and so are lists of an exact reader and records whose
members are read exactly. Hence a list that is accepted consists of items that are (`Accepts.list`),
and the members of an object that is accepted lead from the blank draft of the record to the one
that it is built of, one after the other (`Record.admits`).
-/

namespace MemoTransfer.Json

open MemoTransfer.Utf8 MemoTransfer.Number

variable {α β σ : Type}

/-- Run on a value, the reader fails or stops behind it. -/
def IsExact (r : Reader α) : Prop :=
  ∀ value space rest v t, IsValue value → AllSpace space → EndsNumeral rest →
    Yields r (space ++ (value ++ rest)) v t → t = rest

/-- In some place the reader takes the text and gives the value. -/
def Accepts (r : Reader α) (text : Bytes) (v : α) : Prop :=
  ∃ space rest, AllSpace space ∧ EndsNumeral rest ∧ Yields r (space ++ (text ++ rest)) v rest

/-- Whatever the action gives, it leaves the text as it is. -/
def IsStill (act : Reader α) : Prop := ∀ bs v rest, Yields act bs v rest → rest = bs

namespace IsStill

theorem pure (v : α) : IsStill (pure v : Reader α) := fun _ _ _ h => h.of_pure.2.symm

theorem throw (e : Fault) : IsStill (throw e : Reader α) := fun _ _ _ h => absurd h Yields.not_throw

end IsStill

/-! ## Readers of one kind of value -/

theorem Reader.not_refuse {expected : String} {c : Char} {bs rest : Bytes} {v : α} :
    ¬Yields (refuse expected c : Reader α) bs v rest :=
  fun h => (refuse_ensures expected c (fun _ => False) bs v rest h).elim

/-- A string that is read ends at its quote. -/
theorem Reader.stringBody_exact {body rest t : Bytes} {s : String} (hb : IsBody body)
    (h : Yields stringBody (body ++ byteOf '"' :: rest) s t) : t = rest := by
  obtain ⟨⟨taken, mid⟩, _, lifted, further⟩ := ((Yields.get _).next h).of_bind
  obtain ⟨hbytes, rfl⟩ := lifted.of_lift
  have h := (Yields.set _ _).next further
  obtain ⟨body', hb', parts⟩ := IsBody.of_stringBytes hbytes
  obtain ⟨-, rfl⟩ := hb.unique hb' parts
  split at h
  · exact h.of_pure.2.symm
  · exact absurd h Yields.not_throw

namespace IsExact

variable {r : Reader α}

/-- A reader that looks at the first character of the value. -/
theorem of_start {body : Char → Reader α} (h : ∀ c value rest v t, Shape c value →
    EndsNumeral rest → Yields (body c) (value ++ rest) v t → t = rest) :
    IsExact (Reader.start >>= body) := by
  intro value space rest v t hvalue hs hr hv
  obtain ⟨c, tl, rfl, shape⟩ := hvalue.exists_cons
  exact h c _ rest v t shape hr ((Reader.start_yields hs shape.opens _).next hv)

theorem bind {f : α → Reader β} (h : IsExact r) (h' : ∀ v, IsStill (f v)) :
    IsExact (r >>= f) := by
  intro value space rest w t hvalue hs hr hw
  obtain ⟨v, mid, hv, further⟩ := hw.of_bind
  obtain rfl := h value space rest v mid hvalue hs hr hv
  exact h' v _ w t further

theorem map {f : α → β} (h : IsExact r) : IsExact (do return f (← r)) := h.bind fun _ => .pure _

theorem boolean : IsExact Reader.boolean := by
  refine of_start fun c value rest v t shape _ h => ?_
  split at h
  · rename_i hc
    rw [shape.yes hc] at h
    have word : Yields Reader.yes (bytes ['t', 'r', 'u', 'e'] ++ rest) ⟨⟩ rest :=
      Reader.letters_yields (by simp) rest
    exact (word.next h).of_pure.2.symm
  · split at h
    · rename_i hc
      rw [shape.no hc] at h
      have word : Yields Reader.no (bytes ['f', 'a', 'l', 's', 'e'] ++ rest) ⟨⟩ rest :=
        Reader.letters_yields (by simp) rest
      exact (word.next h).of_pure.2.symm
    · exact absurd h Reader.not_refuse

theorem textOf (expected : String) : IsExact (Reader.textOf expected) := by
  refine of_start fun c value rest v t shape _ h => ?_
  split at h
  · rename_i hc
    obtain ⟨body, hb, rfl⟩ := shape.text hc
    rw [List.cons_append, List.append_assoc] at h
    exact Reader.stringBody_exact hb ((Reader.advance_yields _ _).next h)
  · exact absurd h Reader.not_refuse

theorem text : IsExact Reader.text := textOf _

theorem parsed {expected : String} {parse : String → Except String α} :
    IsExact (Reader.parsed expected parse) := by
  refine (textOf expected).bind fun s => ?_
  split
  · exact .pure _
  · exact .throw _

theorem numberOf (expected : String) : IsExact (Reader.numberOf expected) := by
  refine of_start fun c value rest v t shape hr h => ?_
  split at h
  · rename_i hc
    obtain ⟨n, cs, hn, hp, rfl⟩ := shape.number hc
    exact ((Reader.numeral_yields_front hn hp hr _).next h).of_lift.2.symm
  · exact absurd h Reader.not_refuse

theorem int64 : IsExact Reader.int64 := by
  refine map ((numberOf _).bind fun m => ?_)
  cases m with
  | integer n =>
    dsimp only
    split
    · exact .pure _
    · exact .throw _
  | floating x => exact .throw _

theorem floating : IsExact Reader.floating := by
  refine (numberOf _).bind fun m => ?_
  cases m with
  | floating x => exact .pure _
  | integer n =>
    dsimp only
    split
    · exact .pure _
    · exact .throw _

theorem optional (h : IsExact r) : IsExact (Reader.optional r) := by
  intro value space rest v t hvalue hs hr hv
  obtain ⟨c, tl, rfl, shape⟩ := hvalue.exists_cons
  have hv := (Reader.peek_yields hs shape.opens.isMark (tl ++ rest)).next hv
  rw [← List.cons_append] at hv
  split at hv
  · rename_i hc
    rw [shape.null (Option.some.inj hc)] at hv
    have word : Yields Reader.null (bytes ['n', 'u', 'l', 'l'] ++ rest) ⟨⟩ rest :=
      Reader.letters_yields (by simp) rest
    exact (word.next hv).of_pure.2.symm
  · exact h.map _ [] rest v t hvalue allSpace_nil hr hv

end IsExact

/-! ## Lists -/

section Lists

variable {item : Reader α} {texts : List Bytes} {bs rest t : Bytes} {vs : List α}

theorem Reader.items_go_exact (exact : IsExact item) (values : ∀ text ∈ texts, IsValue text)
    {isFirst : Bool} (hp : Parts isFirst texts bs) {n : Nat} {taken : List α}
    (h : Yields (items.go item n isFirst taken) (bs ++ byteOf ']' :: rest) vs t) :
    t = rest ∧ ∃ ws, vs = taken.reverse ++ ws ∧ List.Forall₂ (Accepts item) texts ws := by
  induction texts generalizing n isFirst bs taken with
  | nil =>
    cases n with
    | zero => exact absurd h Yields.not_throw
    | succ n =>
      have h := (advance_yields _ _).next ((moreItems_end hp rest).next h)
      obtain ⟨rfl, rfl⟩ := h.of_pure
      exact ⟨rfl, [], (List.append_nil _).symm, .nil⟩
  | cons text texts ih =>
    cases n with
    | zero => exact absurd h Yields.not_throw
    | succ n =>
      have value := values text List.mem_cons_self
      obtain ⟨bs', further, -, more⟩ := moreItems_part hp value.begins rest
      have ends := further.endsNumeral (d := ']') (by decide) rest
      obtain ⟨v, mid, hv, h⟩ := (more.next h).of_bind
      obtain rfl := exact text [] _ v mid value allSpace_nil ends hv
      obtain ⟨rfl, ws, rfl, accepted⟩ :=
        ih (fun text' h' => values text' (List.mem_cons_of_mem text h')) further h
      refine ⟨rfl, v :: ws, by simp, .cons ⟨[], _, allSpace_nil, ends, hv⟩ accepted⟩

theorem Reader.list_exact (exact : IsExact item) (values : ∀ text ∈ texts, IsValue text)
    (hl : IsList texts bs) {space : Bytes} (hs : AllSpace space)
    (h : Yields (list item) (space ++ (bs ++ rest)) vs t) :
    t = rest ∧ List.Forall₂ (Accepts item) texts vs := by
  obtain ⟨inner, hi, rfl⟩ := hl
  simp only [List.cons_append, List.append_assoc, List.nil_append] at h
  have h := (advance_yields _ _).next ((start_yields (c := '[') hs (by decide) _).next h)
  obtain ⟨rfl, ws, rfl, accepted⟩ := items_go_exact exact values hi ((Yields.get _).next h)
  exact ⟨rfl, accepted⟩

theorem IsExact.list (exact : IsExact item) : IsExact (Reader.list item) := by
  intro value space rest vs t hvalue hs _ h
  obtain ⟨c, tl, e, shape⟩ := hvalue.exists_cons
  by_cases hc : c = '['
  · obtain ⟨texts, values, hl⟩ := shape.list hc
    exact (Reader.list_exact exact values hl hs h).1
  · subst e
    have refused := (Reader.start_yields hs shape.opens _).next h
    rw [if_neg hc] at refused
    exact absurd refused Reader.not_refuse

/-- **The items of a list that is accepted are accepted.** -/
theorem Accepts.list (exact : IsExact item) (values : ∀ text ∈ texts, IsValue text)
    (hl : IsList texts bs) (h : Accepts (Reader.list item) bs vs) :
    List.Forall₂ (Accepts item) texts vs := by
  obtain ⟨space, rest, hs, -, h⟩ := h
  exact (Reader.list_exact exact values hl hs h).2

end Lists

/-! ## Records -/

/-- In some place the name of the member is read as this one. -/
def Entry.ReadAs (e : Entry) (name : String) : Prop :=
  ∃ rest t, Yields Reader.stringBody (e.name ++ byteOf '"' :: rest) name t

theorem Entry.ReadAs.unique {e : Entry} {name name' : String} (h : e.ReadAs name)
    (hn : Denotes e.name name'.toList) : name = name' := by
  obtain ⟨rest, t, read⟩ := h
  exact (read.unique (Reader.stringBody_denotes hn rest)).1

/-- The members lead from a draft to another one, as far as their reader accepts them. -/
inductive Admits (r : Record σ α) : σ → List Entry → σ → Prop
  | nil (d : σ) : Admits r d [] d
  | known {d d' d'' : σ} {e : Entry} {es : List Entry} {name : String} {m : Member σ}
    (hn : e.ReadAs name) (find : r.members.find? (·.answersTo name) = some m)
    (free : m.isGiven d = false) (accepts : Accepts (m.read d) e.value d')
    (further : Admits r d' es d'') : Admits r d (e :: es) d''
  | unknown {d d' : σ} {e : Entry} {es : List Entry} {name : String} (hn : e.ReadAs name)
    (find : r.members.find? (·.answersTo name) = none) (further : Admits r d es d') :
    Admits r d (e :: es) d'

section Records

variable {r : Record σ α} {es : List Entry} {bs rest t : Bytes} {d d' : σ} {v : α}

namespace Reader

theorem memberName_exact {isFirst : Bool} {e : Entry} {parts : List Bytes}
    (hp : Parts isFirst (e.text :: parts) bs) {o : Option String}
    (h : Yields (memberName isFirst) (bs ++ byteOf '}' :: rest) o t) :
    ∃ name bs', o = some name ∧ e.ReadAs name ∧ Parts false parts bs' ∧
      t = e.gap ++ byteOf ':' :: (e.space ++ (e.value ++ (bs' ++ byteOf '}' :: rest))) := by
  obtain ⟨bs', further, -, more⟩ := moreMembers_part hp rest
  have named := (advance_yields _ _).next (more.next h)
  simp only [List.append_assoc, List.cons_append] at named
  obtain ⟨name, mid, read, last⟩ := named.of_bind
  obtain ⟨rfl, rfl⟩ := last.of_pure
  exact ⟨name, bs', rfl, ⟨_, _, read⟩, further, stringBody_exact e.isBody read⟩

theorem readMember_exact (exact : ∀ m ∈ r.members, ∀ d, IsExact (m.read d)) {e : Entry}
    (value : IsValue e.value) (hr : EndsNumeral rest) {name : String}
    (h : Yields (r.readMember d name) (e.gap ++ byteOf ':' :: (e.space ++ (e.value ++ rest)))
      d' t) :
    t = rest ∧ ((∃ m, r.members.find? (·.answersTo name) = some m ∧ m.isGiven d = false ∧
      Accepts (m.read d) e.value d') ∨
      r.members.find? (·.answersTo name) = none ∧ d' = d) := by
  unfold Record.readMember at h
  split at h
  · rename_i m find
    split at h
    · obtain ⟨_, _, thrown, -⟩ := h.of_bind
      exact absurd thrown Yields.not_throw
    · rename_i free
      have read := (colon_yields e.allSpace_gap _).next h
      obtain rfl := exact m (List.mem_of_find?_eq_some find) d e.value e.space rest d' t value
        e.allSpace_space hr read
      exact ⟨rfl, .inl ⟨m, find, by simpa using free, e.space, _, e.allSpace_space, hr, read⟩⟩
  · rename_i find
    have skipped := value.skipped.yields _ _ e.allSpace_space hr
    obtain ⟨rfl, rfl⟩ := (skipped.next ((colon_yields e.allSpace_gap _).next h)).of_pure
    exact ⟨rfl, .inr ⟨find, rfl⟩⟩

theorem members_go_exact (exact : ∀ m ∈ r.members, ∀ d, IsExact (m.read d))
    (values : ∀ e ∈ es, IsValue e.value) {isFirst : Bool}
    (hp : Parts isFirst (es.map Entry.text) bs) {n : Nat}
    (h : Yields (members.go r.readMember n isFirst d) (bs ++ byteOf '}' :: rest) d' t) :
    t = byteOf '}' :: rest ∧ Admits r d es d' := by
  induction es generalizing n isFirst bs d with
  | nil =>
    cases n with
    | zero => exact absurd h Yields.not_throw
    | succ n =>
      obtain ⟨rfl, rfl⟩ := ((memberName_end hp rest).next h).of_pure
      exact ⟨rfl, .nil _⟩
  | cons e es ih =>
    cases n with
    | zero => exact absurd h Yields.not_throw
    | succ n =>
      obtain ⟨o, _, hname, further⟩ := h.of_bind
      obtain ⟨name, bs', rfl, read, hp', rfl⟩ := memberName_exact hp hname
      have ends := hp'.endsNumeral (d := '}') (by decide) rest
      obtain ⟨d₁, _, member, onward⟩ := further.of_bind
      obtain ⟨rfl, taken⟩ := readMember_exact exact (values e List.mem_cons_self) ends member
      obtain ⟨rfl, admits⟩ :=
        ih (fun e' h' => values e' (List.mem_cons_of_mem e h')) hp' onward
      refine ⟨rfl, ?_⟩
      obtain ⟨m, find, free, accepts⟩ | ⟨find, rfl⟩ := taken
      · exact .known read find free accepts admits
      · exact .unknown read find admits

/-- A list that is closed has no items left. -/
theorem closeList_exact {isFirst : Bool} {texts : List Bytes} (hp : Parts isFirst texts bs)
    (values : ∀ text ∈ texts, IsValue text) {u : Unit}
    (h : Yields closeList (bs ++ byteOf ']' :: rest) u t) : t = rest := by
  cases hp with
  | nil hgap =>
    have closed := (peek_yields hgap (c := ']') (by decide) rest).next h
    exact (closed.unique (advance_yields _ _)).2
  | @first space text bs' texts hspace _ =>
    obtain ⟨c, tl, rfl, hc⟩ := (values text List.mem_cons_self).begins
    simp only [List.append_assoc, List.cons_append] at h
    have left := (peek_yields hspace hc.isMark _).next h
    split at left
    · exact absurd left Yields.not_throw
    · rename_i e
      exact absurd (Option.some.inj e) (hc.ne_mark (by decide))
    · rename_i e
      exact absurd (Option.some.inj e) (hc.ne_mark (by decide))
    · exact absurd left Yields.not_throw
  | @next gap space text bs' texts hgap _ _ =>
    simp only [List.append_assoc, List.cons_append] at h
    have left := (advance_yields _ _).next ((peek_yields hgap (c := ',') (by decide) _).next h)
    obtain ⟨_, _, _, refused⟩ := left.of_bind
    split at refused <;> exact absurd refused Yields.not_throw

/-- The members of a record in a list, as far as there are items for them. -/
theorem readItems_exact {ms : List (Member σ)} (exact : ∀ m ∈ ms, ∀ d, IsExact (m.read d))
    {place : Nat} {texts : List Bytes} (values : ∀ text ∈ texts, IsValue text) {isFirst : Bool}
    (hp : Parts isFirst texts bs) (first : isFirst = decide (place = 0) ∨ texts = [])
    (h : Yields (r.readItems place ms d) (bs ++ byteOf ']' :: rest) d' t) :
    ∃ isFirst texts bs, (∀ text ∈ texts, IsValue text) ∧ Parts isFirst texts bs ∧
      t = bs ++ byteOf ']' :: rest := by
  induction ms generalizing place texts isFirst bs d with
  | nil =>
    obtain ⟨-, rfl⟩ := h.of_pure
    exact ⟨isFirst, texts, bs, values, hp, rfl⟩
  | cons m ms ih =>
    have further := fun m' h' => exact m' (List.mem_cons_of_mem m h')
    cases texts with
    | nil =>
      have ended : Parts (decide (place = 0)) [] bs := .nil hp.allSpace
      have h := (moreItems_end ended rest).next h
      simp only [Bool.false_eq_true, ↓reduceIte] at h
      split at h
      · exact absurd h Yields.not_throw
      · exact ih further (fun _ h => absurd h List.not_mem_nil)
          (.nil allSpace_nil : Parts false [] []) (.inr rfl) h
    | cons text texts =>
      obtain rfl := first.resolve_right (List.cons_ne_nil _ _)
      have value := values text List.mem_cons_self
      obtain ⟨bs', hp', -, more⟩ := moreItems_part hp value.begins rest
      have ends := hp'.endsNumeral (d := ']') (by decide) rest
      obtain ⟨d₁, mid, read, onward⟩ := (more.next h).of_bind
      obtain rfl := exact m List.mem_cons_self d text [] _ d₁ mid value allSpace_nil ends read
      exact ih further (fun text' h' => values text' (List.mem_cons_of_mem text h')) hp'
        (.inl (by simp)) onward

end Reader

variable (exact : ∀ m ∈ r.members, ∀ d, IsExact (m.read d))

include exact

theorem Record.reader_exact (ho : IsObject es bs) (values : ∀ e ∈ es, IsValue e.value)
    {space : Bytes} (hs : AllSpace space) (h : Yields r.reader (space ++ (bs ++ rest)) v t) :
    t = rest ∧ ∃ d, Admits r r.blank es d ∧ r.build d = .ok v := by
  obtain ⟨inner, hi, rfl⟩ := ho
  simp only [List.cons_append, List.append_assoc, List.nil_append] at h
  have h := (Reader.advance_yields _ _).next
    ((Reader.start_yields (c := '\x7b') hs (by decide) _).next h)
  obtain ⟨d, mid, members, h⟩ := h.of_bind
  obtain ⟨rfl, admits⟩ := Reader.members_go_exact exact values hi ((Yields.get _).next members)
  obtain ⟨v', mid', hbuild, h⟩ := h.of_bind
  obtain ⟨build, rfl⟩ := hbuild.of_lift
  obtain ⟨rfl, rfl⟩ := ((Reader.advance_yields _ _).next h).of_pure
  exact ⟨rfl, d, admits, build⟩

/-- **A record whose members are read exactly is read exactly**, as an object or as a list. -/
theorem IsExact.record : IsExact r.reader := by
  intro value space rest v t hvalue hs _ h
  obtain ⟨c, tl, e, shape⟩ := hvalue.exists_cons
  by_cases ho : c = '\x7b'
  · obtain ⟨es, values, ho⟩ := shape.object ho
    exact (Record.reader_exact exact ho values hs h).1
  by_cases hl : c = '['
  · obtain ⟨texts, values, inner, hi, rfl⟩ := shape.list hl
    simp only [List.cons_append, List.append_assoc, List.nil_append] at h
    have h := (Reader.advance_yields _ _).next
      ((Reader.start_yields (c := '[') hs (by decide) _).next h)
    obtain ⟨d, mid, items, h⟩ := h.of_bind
    obtain ⟨isFirst, left, bs, values, hp, rfl⟩ :=
      Reader.readItems_exact exact values hi (.inl rfl) items
    obtain ⟨v', mid', hbuild, h⟩ := h.of_bind
    obtain ⟨-, rfl⟩ := hbuild.of_lift
    obtain ⟨u, mid'', closed, h⟩ := h.of_bind
    obtain ⟨-, rfl⟩ := h.of_pure
    exact Reader.closeList_exact hp values closed
  · subst e
    have refused := (Reader.start_yields hs shape.opens _).next h
    rw [if_neg hl, if_neg ho] at refused
    exact absurd refused Reader.not_refuse

/-- **The members of an object that is accepted lead from the blank draft to the one that the
record is built of.** -/
theorem Record.admits (ho : IsObject es bs) (values : ∀ e ∈ es, IsValue e.value)
    (h : Accepts r.reader bs v) : ∃ d, Admits r r.blank es d ∧ r.build d = .ok v := by
  obtain ⟨space, rest, hs, -, h⟩ := h
  exact (reader_exact exact ho values hs h).2

end Records

end MemoTransfer.Json
