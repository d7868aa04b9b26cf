import MemoTransfer.Memo.Derived
import MemoTransfer.Proofs.Content.Matches
import Mathlib.Data.List.TakeWhile

/-!
# The tags of a text

A tag stands at a place of a text if a number sign is there, at the start or after white space, and
the tag is the whole run of tag characters behind it. The search for tags takes the white space with
each tag and goes on behind the tag, so that it looks only at some places; but it finds the tags of
all places, in their order (`findAll_tagMatch`). So the tags of a payload are exactly those that
stand in the prose of its text (`areTagsOf_ofContent`).
-/

namespace MemoTransfer.Content

open MemoTransfer.Text

/-! ## What a tag is -/

/-- A run of tag characters that is not empty. -/
def IsTag (t : String) : Prop := t ≠ "" ∧ ∀ c ∈ t.toList, isTagChar c = true

/-- The run of tag characters ends before the text. -/
def EndsTag (cs : List Char) : Prop := ∀ c ∈ cs.head?, isTagChar c = false

/-- A tag can begin behind the character, or at the start of a text. -/
def OpensTag (before : Option Char) : Prop := before.all isBlank = true

/-- The tag stands at the place of the text. -/
def StandsAt (cs : List Char) (place : Nat) (t : String) : Prop :=
  ∃ p q, cs = p ++ '#' :: (t.toList ++ q) ∧ p.length = place ∧ OpensTag p.getLast? ∧
    IsTag t ∧ EndsTag q

/-- The tags are those that stand in the prose of the text, each once, in the order of their first
places, and they can be seen in the text itself. -/
structure AreTagsOf (content : String) (tags : List String) : Prop where
  mem : ∀ t, t ∈ tags ↔ ∃ place, StandsAt (prose content.toList) place t
  nodup : tags.Nodup
  ordered : tags.Pairwise fun t t' => ∀ place', StandsAt (prose content.toList) place' t' →
    ∃ place < place', StandsAt (prose content.toList) place t
  literal : ∀ t ∈ tags, '#' :: t.toList <:+: content.toList

variable {before : Option Char} {c : Char} {cs w rest : List Char} {t : String} {place : Nat}

/-! ## The characters -/

/-- Classes of characters whose ranges do not meet have no character in common. -/
theorem has_eq_false_of_apart {ranges ranges' : Ranges}
    (apart : ∀ r ∈ ranges, ∀ r' ∈ ranges', r.2 < r'.1 ∨ r'.2 < r.1) (h : ranges.has c = true) :
    ranges'.has c = false := by
  obtain ⟨r, among, low, high⟩ := Ranges.has_iff.1 h
  rw [← Bool.not_eq_true, Ranges.has_iff]
  rintro ⟨r', among', low', high'⟩
  have := apart r among r' among'
  omega

/-- White space cannot be part of a tag. -/
theorem isTagChar_eq_false_of_isBlank (h : isBlank c = true) : isTagChar c = false := by
  have letterless : isLetterOrNumber c = false := has_eq_false_of_apart (by decide +kernel) h
  have other {d : Char} (solid : isBlank d = false) : c ≠ d := by
    rintro rfl
    exact Bool.noConfusion (h.symm.trans solid)
  have underscore : c ≠ '_' := other (by decide)
  have hyphen : c ≠ '-' := other (by decide)
  have slash : c ≠ '/' := other (by decide)
  simp [isTagChar, letterless, underscore, hyphen, slash]

theorem isTagChar_numberSign : isTagChar '#' = false := by decide +kernel

theorem ne_numberSign_of_isBlank (h : isBlank c = true) : c ≠ '#' := by
  rintro rfl
  exact absurd h (by decide)

theorem IsTag.not_mem (tag : IsTag t) (h : isTagChar c = false) : c ∉ t.toList := fun among =>
  Bool.noConfusion ((tag.2 c among).symm.trans h)

/-! ## A tag at one place -/

theorem tagBody_of_ne (h : c ≠ '#') (cs : List Char) : tagBody (c :: cs) = none := if_neg h

/-- What is read is a tag, up to its last character. -/
theorem exists_of_tagBody (read : tagBody cs = some t) :
    ∃ q, cs = '#' :: (t.toList ++ q) ∧ IsTag t ∧ EndsTag q := by
  cases cs with
  | nil => cases read
  | cons c cs =>
    by_cases sign : c = '#'
    · rw [tagBody, if_pos sign] at read
      by_cases none_there : (cs.takeWhile isTagChar).isEmpty
      · rw [if_pos none_there] at read
        cases read
      · rw [if_neg none_there] at read
        cases read
        have tag : IsTag (.ofList (cs.takeWhile isTagChar)) := by
          refine ⟨fun empty => none_there ?_, fun d among => ?_⟩
          · rw [String.ofList_eq_empty_iff] at empty
            exact List.isEmpty_iff.2 empty
          · rw [String.toList_ofList] at among
            exact List.mem_takeWhile_imp among
        refine ⟨cs.dropWhile isTagChar, ?_, tag, fun d head => ?_⟩
        · rw [String.toList_ofList, List.takeWhile_append_dropWhile, sign]
        · have stopped := List.head?_dropWhile_not isTagChar cs
          rw [Option.mem_def.1 head] at stopped
          exact stopped
    · rw [tagBody_of_ne sign] at read
      cases read

/-- A tag is read as far as its characters go. -/
theorem tagBody_of_tag (tag : IsTag t) (ends : EndsTag rest) :
    tagBody ('#' :: (t.toList ++ rest)) = some t := by
  have stopped : rest.takeWhile isTagChar = [] := by
    cases rest with
    | nil => rfl
    | cons d rest => rw [List.takeWhile_cons_of_neg (by rw [ends d rfl]; exact Bool.false_ne_true)]
  have run : (t.toList ++ rest).takeWhile isTagChar = t.toList := by
    rw [List.takeWhile_append_of_pos tag.2, stopped, List.append_nil]
  have filled : ¬t.toList.isEmpty = true := fun empty =>
    tag.1 (String.toList_eq_nil_iff.1 (List.isEmpty_iff.1 empty))
  rw [tagBody, if_pos rfl]
  dsimp only
  rw [run, if_neg filled, String.ofList_toList]

/-- At the start of a text, a tag needs no white space before it. -/
theorem tagMatch_start (read : tagBody cs = some t) :
    tagMatch none cs = some (t, t.length + 1) := by
  rw [tagMatch.eq_def, Option.isNone_none, if_pos rfl, read]

/-- A tag is found with the white space before it. -/
theorem tagMatch_blank (blank : isBlank c = true) (before : Option Char) (cs : List Char) :
    tagMatch before (c :: cs) = (tagBody cs).map fun t => (t, t.length + 2) := by
  rw [tagMatch, tagBody_of_ne (ne_numberSign_of_isBlank blank), ite_self]
  exact if_pos blank

/-- Nothing is found at a character that is not white space, behind the start of a text. -/
theorem tagMatch_of_solid (solid : ¬isBlank c = true)
    (inside : before = none → tagBody (c :: cs) = none) : tagMatch before (c :: cs) = none := by
  have none_here : (if before.isNone then tagBody (c :: cs) else none) = none := by
    cases before with
    | none => exact inside rfl
    | some b => rfl
  rw [tagMatch, none_here]
  exact if_neg solid

/-! ## The tags of all places -/

/-- The tags that stand in a text, each with its place. The place of the text and the character
before it are given. -/
def sightings : Nat → Option Char → List Char → List (Nat × String)
  | _, _, [] => []
  | place, before, c :: cs =>
    match if before.all isBlank then tagBody (c :: cs) else none with
    | some t => (place, t) :: sightings (place + 1) (some c) cs
    | none => sightings (place + 1) (some c) cs

theorem sightings_of_none (none_here : OpensTag before → tagBody (c :: cs) = none) (place : Nat) :
    sightings place before (c :: cs) = sightings (place + 1) (some c) cs := by
  have unseen : (if before.all isBlank then tagBody (c :: cs) else none) = none := by
    split
    case isTrue opens => exact none_here opens
    case isFalse => rfl
  rw [sightings, unseen]

theorem sightings_of_some (opens : OpensTag before) (read : tagBody (c :: cs) = some t)
    (place : Nat) :
    sightings place before (c :: cs) = (place, t) :: sightings (place + 1) (some c) cs := by
  have seen : (if before.all isBlank then tagBody (c :: cs) else none) = some t := by
    rw [if_pos (show before.all isBlank = true from opens), read]
  rw [sightings, seen]

/-- Nothing stands where there is no number sign. -/
theorem sightings_skip (unsigned : '#' ∉ w) (place : Nat) (before : Option Char)
    (rest : List Char) :
    sightings place before (w ++ rest) =
      sightings (place + w.length) (w.getLast?.or before) rest := by
  induction w generalizing place before with
  | nil => rfl
  | cons c w ih =>
    rw [List.mem_cons, not_or] at unsigned
    have none_here : OpensTag before → tagBody (c :: (w ++ rest)) = none := fun _ =>
      tagBody_of_ne (Ne.symm unsigned.1) _
    rw [List.cons_append, sightings_of_none none_here, ih unsigned.2, Pattern.getLast?_cons_or,
      List.length_cons, Nat.add_assoc, Nat.add_comm 1]

/-- Behind a tag, the next place of a tag is behind its last character. -/
theorem sightings_of_tag (opens : OpensTag before) (tag : IsTag t) (ends : EndsTag rest)
    (place : Nat) :
    sightings place before ('#' :: (t.toList ++ rest)) =
      (place, t) ::
        sightings (place + 1 + t.toList.length) (t.toList.getLast?.or (some '#')) rest := by
  rw [sightings_of_some opens (tagBody_of_tag tag ends),
    sightings_skip (tag.not_mem isTagChar_numberSign)]

theorem mem_sightings_cons_iff {i : Nat} :
    (i, t) ∈ sightings place before (c :: cs) ↔
      (i = place ∧ OpensTag before ∧ tagBody (c :: cs) = some t) ∨
        (i, t) ∈ sightings (place + 1) (some c) cs := by
  by_cases here : OpensTag before ∧ ∃ u, tagBody (c :: cs) = some u
  · obtain ⟨opens, u, read⟩ := here
    rw [sightings_of_some opens read, List.mem_cons, Prod.mk.injEq, read, Option.some.injEq]
    simp only [opens, true_and, eq_comm]
  · have none_here : OpensTag before → tagBody (c :: cs) = none := fun opens =>
      Option.eq_none_iff_forall_ne_some.2 fun u read => here ⟨opens, u, read⟩
    rw [sightings_of_none none_here]
    refine ⟨.inr, ?_⟩
    rintro (⟨-, opens, read⟩ | later)
    · exact absurd ⟨opens, t, read⟩ here
    · exact later

/-- The sightings are the tags that stand in the text. -/
theorem mem_sightings_iff {i : Nat} :
    (i, t) ∈ sightings place before cs ↔
      ∃ p q, cs = p ++ '#' :: (t.toList ++ q) ∧ place + p.length = i ∧
        OpensTag (p.getLast?.or before) ∧ IsTag t ∧ EndsTag q := by
  induction cs generalizing place before with
  | nil =>
    constructor
    · intro seen
      cases seen
    · rintro ⟨p, q, parted, -⟩
      simp at parted
  | cons c cs ih =>
    rw [mem_sightings_cons_iff, ih]
    constructor
    · rintro (⟨rfl, opens, read⟩ | ⟨p, q, rfl, rfl, opens, tag, ends⟩)
      · obtain ⟨q, parted, tag, ends⟩ := exists_of_tagBody read
        exact ⟨[], q, parted, rfl, opens, tag, ends⟩
      · refine ⟨c :: p, q, rfl, ?_, ?_, tag, ends⟩
        · rw [List.length_cons]
          omega
        · rwa [Pattern.getLast?_cons_or]
    · rintro ⟨_ | ⟨d, p⟩, q, parted, rfl, opens, tag, ends⟩
      · exact .inl ⟨rfl, opens, parted ▸ tagBody_of_tag tag ends⟩
      · cases parted
        refine .inr ⟨p, q, rfl, ?_, ?_, tag, ends⟩
        · rw [List.length_cons]
          omega
        · rwa [Pattern.getLast?_cons_or] at opens

/-- A tag is not seen at a place before the text. -/
theorem le_of_mem_sightings {i : Nat} (seen : (i, t) ∈ sightings place before cs) : place ≤ i := by
  obtain ⟨p, q, -, rfl, -⟩ := mem_sightings_iff.1 seen
  exact Nat.le_add_right _ _

/-- The sightings are in the order of their places. -/
theorem pairwise_sightings (place : Nat) (before : Option Char) (cs : List Char) :
    (sightings place before cs).Pairwise fun x y => x.1 < y.1 := by
  induction cs generalizing place before with
  | nil => exact .nil
  | cons c cs ih =>
    rw [sightings]
    split
    · exact .cons (fun y later => le_of_mem_sightings later) (ih _ _)
    · exact ih _ _

/-! ## The search -/

/-- No tag begins at the place, if white space before it was passed over. -/
def Passed (before : Option Char) (cs : List Char) : Prop :=
  ∀ b ∈ before, isBlank b = true → tagBody cs = none

/-- The search goes on behind a tag, and nothing was passed over there. -/
theorem passed_of_tag (tag : IsTag t) (rest : List Char) :
    Passed (t.toList.getLast?.or (some '#')) rest := by
  intro b last blank
  rw [Option.mem_def, Option.or_some, Option.some.injEq] at last
  cases h : t.toList.getLast? with
  | none =>
    rw [h] at last
    exact absurd last.symm (ne_numberSign_of_isBlank blank)
  | some d =>
    rw [h] at last
    have among : b ∈ t.toList := last ▸ List.mem_of_getLast? h
    exact absurd among (tag.not_mem (isTagChar_eq_false_of_isBlank blank))

/-- The search at a tag at the start of a text goes on behind it. -/
theorem findFrom_tagMatch_start (tag : IsTag t) (ends : EndsTag rest) :
    tagMatch.findFrom 0 none ('#' :: (t.toList ++ rest)) =
      t :: tagMatch.findFrom 0 (t.toList.getLast?.or (some '#')) rest := by
  rw [Pattern.findFrom_of_some (tagMatch_start (tagBody_of_tag tag ends)), Nat.add_sub_cancel,
    ← String.length_toList, Pattern.findFrom_skip]

/-- The search at white space before a tag goes on behind the tag. -/
theorem findFrom_tagMatch_blank (blank : isBlank c = true) (tag : IsTag t) (ends : EndsTag rest)
    (before : Option Char) :
    tagMatch.findFrom 0 before (c :: '#' :: (t.toList ++ rest)) =
      t :: tagMatch.findFrom 0 (t.toList.getLast?.or (some '#')) rest := by
  have found : tagMatch before (c :: '#' :: (t.toList ++ rest)) = some (t, t.length + 2) := by
    rw [tagMatch_blank blank, tagBody_of_tag tag ends, Option.map_some]
  rw [Pattern.findFrom_of_some found, Nat.add_sub_assoc (by decide), ← String.length_toList]
  exact congrArg (t :: ·) (Pattern.findFrom_skip tagMatch t.toList rest (some '#'))

/-- **The search finds the tags of all places, in their order.** -/
theorem findFrom_tagMatch (passed : Passed before cs) (place : Nat) :
    tagMatch.findFrom 0 before cs = (sightings place before cs).map Prod.snd := by
  -- the search goes on behind the last character of a tag, so the induction is on the length
  induction size : cs.length using Nat.strong_induction_on generalizing before place cs with
  | _ n ih =>
    subst size
    match cs with
    | [] => rfl
    | c :: cs =>
      by_cases blank : isBlank c = true
      · have none_here : tagBody (c :: cs) = none := tagBody_of_ne (ne_numberSign_of_isBlank blank) cs
        rw [sightings_of_none fun _ => none_here]
        cases read : tagBody cs with
        | none =>
          have none_found : tagMatch before (c :: cs) = none := by
            rw [tagMatch_blank blank, read, Option.map_none]
          rw [Pattern.findFrom_of_none none_found]
          exact ih _ (Nat.lt_succ_self _) (fun _ _ _ => read) _ rfl
        | some t =>
          obtain ⟨rest, rfl, tag, ends⟩ := exists_of_tagBody read
          have opens : OpensTag (some c) := blank
          have shorter : rest.length < (c :: '#' :: (t.toList ++ rest)).length := by
            simp only [List.length_cons, List.length_append]
            omega
          rw [findFrom_tagMatch_blank blank tag ends, sightings_of_tag opens tag ends,
            List.map_cons, ih _ shorter (passed_of_tag tag rest) _ rfl]
      · have further : Passed (some c) cs := fun d same blank' =>
          absurd (Option.some.inj same ▸ blank') blank
        by_cases here : before = none ∧ ∃ t, tagBody (c :: cs) = some t
        · obtain ⟨rfl, t, read⟩ := here
          obtain ⟨rest, parted, tag, ends⟩ := exists_of_tagBody read
          have opens : OpensTag none := rfl
          have shorter : rest.length < (c :: cs).length := by
            rw [parted]
            simp only [List.length_cons, List.length_append]
            omega
          rw [parted, findFrom_tagMatch_start tag ends, sightings_of_tag opens tag ends,
            List.map_cons, ih _ shorter (passed_of_tag tag rest) _ rfl]
        · have unread : before = none → tagBody (c :: cs) = none := fun start =>
            Option.eq_none_iff_forall_ne_some.2 fun t read => here ⟨start, t, read⟩
          have none_here : OpensTag before → tagBody (c :: cs) = none := by
            intro opens
            cases before with
            | none => exact unread rfl
            | some b => exact passed b rfl opens
          rw [Pattern.findFrom_of_none (tagMatch_of_solid blank unread),
            sightings_of_none none_here]
          exact ih _ (Nat.lt_succ_self _) further _ rfl

theorem findAll_tagMatch (cs : List Char) :
    tagMatch.findAll cs = (sightings 0 none cs).map Prod.snd :=
  findFrom_tagMatch (fun b none => by cases none) 0

theorem mem_sightings_iff_standsAt :
    (place, t) ∈ sightings 0 none cs ↔ StandsAt cs place t := by
  rw [mem_sightings_iff, StandsAt]
  simp only [Nat.zero_add, Option.or_none]

/-! ## Each tag once -/

/-- The items of a list in the order of places, each kept once, are in the order of their first
places. -/
theorem pairwise_eraseDups {β : Type} [BEq β] [LawfulBEq β] (l : List (Nat × β))
    (sorted : l.Pairwise fun x y => x.1 < y.1) :
    (l.map Prod.snd).eraseDups.Pairwise fun a b =>
      a ≠ b ∧ ∀ j, (j, b) ∈ l → ∃ i < j, (i, a) ∈ l := by
  induction size : l.length using Nat.strong_induction_on generalizing l with
  | _ n ih =>
    subst size
    match l, sorted with
    | [], _ => exact .nil
    | (i, a) :: l, .cons first sorted =>
      have others : (l.map Prod.snd).filter (fun b => !b == a) =
          (l.filter fun x => !x.2 == a).map Prod.snd := by
        rw [List.filter_map]
        rfl
      have shorter : (l.filter fun x => !x.2 == a).length < ((i, a) :: l).length :=
        Nat.lt_succ_of_le (List.length_filter_le _ _)
      have distinct {b : β}
          (among : b ∈ ((l.filter fun x => !x.2 == a).map Prod.snd).eraseDups) : b ≠ a := by
        obtain ⟨x, kept, rfl⟩ := List.mem_map.1 (List.mem_eraseDups.1 among)
        simpa using (List.mem_filter.1 kept).2
      have later {b : β} {j : Nat} (other : b ≠ a) (seen : (j, b) ∈ (i, a) :: l) : (j, b) ∈ l :=
        (List.mem_cons.1 seen).resolve_left fun same => other (congrArg Prod.snd same)
      rw [List.map_cons, List.eraseDups_cons, others]
      refine .cons (fun b among => ⟨(distinct among).symm, fun j seen => ?_⟩) ?_
      · exact ⟨i, first _ (later (distinct among) seen), List.mem_cons_self⟩
      · refine (ih _ shorter _ (sorted.filter _) rfl).imp_of_mem ?_
        rintro b b' - among' ⟨apart, earlier⟩
        refine ⟨apart, fun j seen => ?_⟩
        have kept : (j, b') ∈ l.filter fun x => !x.2 == a :=
          List.mem_filter.2 ⟨later (distinct among') seen, by simpa using distinct among'⟩
        obtain ⟨k, before, there⟩ := earlier j kept
        exact ⟨k, before, List.mem_cons_of_mem _ (List.mem_filter.1 there).1⟩

/-! ## The tags of a payload -/

/-- A tag that stands in a prose stands in the text that it is the prose of. -/
theorem StandsAt.infix (stands : StandsAt (prose cs) place t) : '#' :: t.toList <:+: cs := by
  obtain ⟨p, q, parted, -, -, tag, -⟩ := stands
  have unspaced : ' ' ∉ '#' :: t.toList := by
    rw [List.mem_cons, not_or]
    exact ⟨by decide, tag.not_mem (isTagChar_eq_false_of_isBlank (by decide))⟩
  have among : '#' :: t.toList <:+: prose cs := ⟨p, q, by
    rw [parted, List.append_assoc, List.cons_append]⟩
  exact Pattern.infix_of_infix_blankAll unspaced (Pattern.infix_of_infix_blankAll unspaced among)

/-- **The extraction of tags is exact.** For every text, the tags of its payload are those that
stand in its prose, each once and in the order of their first places, and each can be seen in the
text itself. -/
theorem areTagsOf_ofContent (content : String) (location : Option Location) :
    AreTagsOf content (Payload.ofContent content location).tags := by
  have ordered := pairwise_eraseDups _ (pairwise_sightings 0 none (prose content.toList))
  rw [← findAll_tagMatch] at ordered
  simp only [mem_sightings_iff_standsAt] at ordered
  have stands (t : String) : t ∈ (Payload.ofContent content location).tags ↔
      ∃ place, StandsAt (prose content.toList) place t := by
    rw [Payload.ofContent, tags, List.mem_eraseDups, findAll_tagMatch, List.mem_map]
    simp only [Prod.exists, exists_eq_right, mem_sightings_iff_standsAt]
  constructor
  · exact stands
  · exact ordered.imp And.left
  · exact ordered.imp And.right
  · intro t among
    obtain ⟨place, standing⟩ := (stands t).1 among
    exact standing.infix

/-- A tag ends at the next number sign, and one may stand behind code. -/
example : (Payload.ofContent "#a #b#c \x60x\x60#d #a" none).tags = ["a", "b", "d"] := by
  decide +kernel

end MemoTransfer.Content
