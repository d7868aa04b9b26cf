import MemoTransfer.Memo.Derived
import MemoTransfer.Proofs.Content.Matches
import Mathlib.Data.List.TakeWhile

/-!
# The flags of a text

A line shows a task if it begins, after white space, with a list mark, a space and a box. The search
for tasks takes the white space before a task with it, over the ends of lines, and goes on behind
the box; but whatever lines it passes over there are blank, so that it finds the tasks of all lines,
in their order (`tasks_eq`). A text has a link just if an address or a bracketed text with a target
stands somewhere in it (`hasLink_iff`). So the flags of a payload say what the prose of its text
shows (`areFlagsOf_ofContent`).
-/

namespace MemoTransfer.Content

open MemoTransfer.Text

/-! ## What the flags say -/

/-- The character marks an item of a list. -/
def IsListMark (c : Char) : Prop := c = '-' ∨ c = '*' ∨ c = '+'

/-- The character can stand in the box. -/
def Box.Takes : Box → Char → Prop
  | unticked, c => c = ' '
  | ticked, c => c = 'x' ∨ c = 'X'

/-- The text begins, after white space, with a list mark, a space and the box. -/
def ShowsTask (box : Box) (cs : List Char) : Prop :=
  ∃ indent mark filling rest, cs = indent ++ mark :: ' ' :: '[' :: filling :: ']' :: rest ∧
    (∀ c ∈ indent, isBlank c = true) ∧ IsListMark mark ∧ box.Takes filling

/-- The text contains the beginning of an address, and a character behind it. -/
def ShowsAddress (cs : List Char) : Prop :=
  ∃ c, isBlank c = false ∧ ("http://".toList ++ [c] <:+: cs ∨ "https://".toList ++ [c] <:+: cs)

/-- The text contains a bracketed text with a target in parentheses. -/
def ShowsTarget (cs : List Char) : Prop :=
  ∃ text target, ']' ∉ text ∧ target ≠ [] ∧ ')' ∉ target ∧
    '[' :: (text ++ ']' :: '(' :: (target ++ [')'])) <:+: cs

/-- The flags say what the prose of the text shows. -/
structure AreFlagsOf (content : String) (flags : Property) : Prop where
  taskList : flags.hasTaskList = true ↔
    ∃ line ∈ (prose content.toList).splitOn '\n', ∃ box, ShowsTask box line
  incomplete : flags.hasIncompleteTasks = true ↔
    ∃ line ∈ (prose content.toList).splitOn '\n', ShowsTask .unticked line
  taskList_of_incomplete : flags.hasIncompleteTasks = true → flags.hasTaskList = true
  link : flags.hasLink = true ↔
    ShowsAddress (prose content.toList) ∨ ShowsTarget (prose content.toList)

variable {before : Option Char} {c : Char} {cs line indent rest : List Char} {box : Box}

/-! ## A task -/

/-- A place where a line begins. -/
def OpensLine (before : Option Char) : Prop := before = none ∨ before = some '\n'

theorem IsListMark.not_blank (h : IsListMark c) : ¬isBlank c = true := by
  rcases h with rfl | rfl | rfl <;> decide

theorem IsListMark.ne_lineBreak (h : IsListMark c) : c ≠ '\n' := by
  rintro rfl
  exact h.not_blank (by decide)

theorem Box.Takes.ne_lineBreak (h : box.Takes c) : c ≠ '\n' := by
  rintro rfl
  cases box with
  | unticked => cases h
  | ticked => rcases h with h | h <;> cases h

/-- What is read is a list mark, a space and the box. -/
theorem taskBody_eq_some_iff : taskBody cs = some box ↔ ∃ mark filling rest,
    cs = mark :: ' ' :: '[' :: filling :: ']' :: rest ∧ IsListMark mark ∧ box.Takes filling := by
  constructor
  · intro read
    unfold taskBody at read
    split at read
    case h_2 => cases read
    case h_1 mark filling rest =>
      split_ifs at read with listed empty ticked
      all_goals
        cases read
        refine ⟨mark, filling, rest, rfl, ?_, ?_⟩
        · simpa [IsListMark, or_assoc] using listed
      · exact empty
      · simpa [Box.Takes] using ticked
  · rintro ⟨mark, filling, rest, rfl, listed, takes⟩
    have listed' : mark = '-' ∨ mark = '*' ∨ mark = '+' := listed
    cases box with
    | unticked =>
      obtain rfl : filling = ' ' := takes
      simp [taskBody, listed', or_assoc]
    | ticked =>
      rcases takes with rfl | rfl <;> simp [taskBody, listed', or_assoc]

/-- A list mark ends the white space that a text begins with. -/
theorem trimStart_append (blank : ∀ c ∈ indent, isBlank c = true) (rest : List Char) :
    trimStart (indent ++ rest) = trimStart rest :=
  List.dropWhile_append_of_pos blank

theorem taskBody_trimStart_iff : taskBody (trimStart cs) = some box ↔ ShowsTask box cs := by
  constructor
  · intro read
    obtain ⟨mark, filling, rest, parted, listed, takes⟩ := taskBody_eq_some_iff.1 read
    refine ⟨cs.takeWhile isBlank, mark, filling, rest, ?_, fun c => List.mem_takeWhile_imp, listed,
      takes⟩
    rw [← parted, trimStart, List.takeWhile_append_dropWhile]
  · rintro ⟨indent, mark, filling, rest, rfl, blank, listed, takes⟩
    rw [trimStart_append blank, trimStart, List.dropWhile_cons_of_neg listed.not_blank]
    exact taskBody_eq_some_iff.2 ⟨mark, filling, rest, rfl, listed, takes⟩

theorem taskMatch_of_opensLine (h : OpensLine before) (cs : List Char) :
    taskMatch before cs = (taskBody (trimStart cs)).map fun box =>
      (box, cs.length - (trimStart cs).length + 5) :=
  if_pos (by simpa [OpensLine] using h)

theorem taskMatch_of_not_opensLine (h : ¬OpensLine before) (cs : List Char) :
    taskMatch before cs = none :=
  if_neg (by simpa [OpensLine] using h)

theorem taskMatch_eq_none (none_here : taskBody (trimStart cs) = none) (before : Option Char) :
    taskMatch before cs = none := by
  rw [taskMatch, none_here, Option.map_none, ite_self]

/-! ## The search for tasks -/

/-- The search goes on behind the box of a task. -/
theorem findFrom_taskMatch_task (opens : OpensLine before)
    (blank : ∀ c ∈ indent, isBlank c = true) {mark filling : Char} (listed : IsListMark mark)
    (takes : box.Takes filling) (rest : List Char) :
    taskMatch.findFrom 0 before (indent ++ mark :: ' ' :: '[' :: filling :: ']' :: rest) =
      box :: taskMatch.findFrom 0 (some ']') rest := by
  generalize hm : indent ++ [mark, ' ', '[', filling, ']'] = matched
  have parted : indent ++ mark :: ' ' :: '[' :: filling :: ']' :: rest = matched ++ rest := by
    rw [← hm, List.append_assoc]
    rfl
  have trimmed : trimStart (matched ++ rest) = mark :: ' ' :: '[' :: filling :: ']' :: rest := by
    rw [← parted, trimStart_append blank]
    exact List.dropWhile_cons_of_neg listed.not_blank
  have read : taskBody (trimStart (matched ++ rest)) = some box :=
    taskBody_eq_some_iff.2 ⟨mark, filling, rest, trimmed, listed, takes⟩
  have size : (matched ++ rest).length - (trimStart (matched ++ rest)).length + 5 =
      matched.length := by
    rw [trimmed, ← hm]
    simp only [List.length_append, List.length_cons, List.length_nil]
    omega
  have found : taskMatch before (matched ++ rest) = some (box, matched.length) := by
    rw [← size, taskMatch_of_opensLine opens, read]
    rfl
  have last : matched.getLast? = some ']' := by
    rw [← hm, List.getLast?_append]
    rfl
  rw [parted]
  match matched, found, last with
  | c :: matched, found, last =>
    rw [List.cons_append] at found ⊢
    rw [Pattern.findFrom_of_some found, List.length_cons, Nat.add_sub_cancel,
      Pattern.findFrom_skip, ← Pattern.getLast?_cons_or c matched before, last, Option.some_or]

/-- A place on a line behind a character of it. -/
theorem not_opensLine_of_mem (unbroken : '\n' ∉ line) (among : c ∈ line) :
    ¬OpensLine (some c) := by
  rintro (none | same)
  · cases none
  · exact unbroken (Option.some.inj same ▸ among)

/-- If no task is found where a line begins, none is found on the line. -/
theorem findFrom_taskMatch_of_none (unbroken : '\n' ∉ line)
    (none_here : taskMatch before (line ++ '\n' :: rest) = none) :
    taskMatch.findFrom 0 before (line ++ '\n' :: rest) =
      taskMatch.findFrom 0 (some '\n') rest := by
  induction line generalizing before with
  | nil => exact Pattern.findFrom_of_none none_here
  | cons c line ih =>
    have inside := not_opensLine_of_mem unbroken List.mem_cons_self
    rw [List.cons_append] at none_here ⊢
    rw [Pattern.findFrom_of_none none_here]
    exact ih (fun among => unbroken (List.mem_cons_of_mem _ among))
      (taskMatch_of_not_opensLine inside _)

/-- The same for the last line. -/
theorem findFrom_taskMatch_eq_nil (unbroken : '\n' ∉ line)
    (none_here : taskMatch before line = none) : taskMatch.findFrom 0 before line = [] := by
  rw [Pattern.findFrom_eq_nil_iff]
  rintro l d r rfl
  cases last : l.getLast? with
  | none =>
    rw [List.getLast?_eq_none_iff] at last
    subst last
    exact none_here
  | some c =>
    have among : c ∈ l ++ d :: r := List.mem_append_left _ (List.mem_of_getLast? last)
    exact taskMatch_of_not_opensLine (not_opensLine_of_mem unbroken among) _

/-- A task that is read where a line begins stands on that line, or the line is blank and the task
is read where the next one begins. -/
theorem showsTask_append_lineBreak (h : ShowsTask box (line ++ '\n' :: rest)) :
    ShowsTask box line ∨ (∀ c ∈ line, isBlank c = true) ∧ ShowsTask box rest := by
  obtain ⟨indent, mark, filling, after, parted, blank, listed, takes⟩ := h
  rcases List.append_eq_append_iff.1 parted with ⟨w, rfl, ends⟩ | ⟨w, rfl, begins⟩
  · refine .inr ⟨fun c among => blank c (List.mem_append_left _ among), ?_⟩
    match w, ends with
    | [], ends =>
      cases ends
      exact absurd rfl listed.ne_lineBreak
    | _ :: w, ends =>
      cases ends
      exact ⟨w, mark, filling, after, rfl,
        fun c among => blank c (List.mem_append_right _ (List.mem_cons_of_mem _ among)), listed,
        takes⟩
  · -- no character of the task is the end of the line
    match w, begins with
    | [], begins =>
      cases begins
      exact absurd rfl listed.ne_lineBreak
    | [_, _, _], begins =>
      cases begins
      exact absurd rfl takes.ne_lineBreak
    | _ :: _ :: _ :: _ :: _ :: w, begins =>
      cases begins
      exact .inl ⟨indent, mark, filling, w, rfl, blank, listed, takes⟩

theorem ShowsTask.append (h : ShowsTask box line) (rest : List Char) :
    ShowsTask box (line ++ rest) := by
  obtain ⟨indent, mark, filling, after, rfl, shown⟩ := h
  exact ⟨indent, mark, filling, after ++ rest, by simp, shown⟩

/-- The search at a line that shows a task goes on with the rest of the line. -/
theorem ShowsTask.exists_findFrom (h : ShowsTask box line) (opens : OpensLine before)
    (rest : List Char) :
    ∃ after, after <:+ line ∧ taskMatch.findFrom 0 before (line ++ rest) =
      box :: taskMatch.findFrom 0 (some ']') (after ++ rest) := by
  obtain ⟨indent, mark, filling, after, rfl, blank, listed, takes⟩ := h
  refine ⟨after, ⟨indent ++ [mark, ' ', '[', filling, ']'], by simp⟩, ?_⟩
  simpa using findFrom_taskMatch_task opens blank listed takes (after ++ rest)

theorem not_opensLine_box : ¬OpensLine (some ']') := by
  rintro (h | h) <;> cases h

/-- **The search finds the task of a line, and goes on with the next line.** -/
theorem findFrom_taskMatch_line (opens : OpensLine before) (unbroken : '\n' ∉ line)
    (rest : List Char) :
    taskMatch.findFrom 0 before (line ++ '\n' :: rest) =
      (taskBody (trimStart line)).toList ++ taskMatch.findFrom 0 (some '\n') rest := by
  cases read : taskBody (trimStart (line ++ '\n' :: rest)) with
  | none =>
    have unshown : taskBody (trimStart line) = none := by
      refine Option.eq_none_iff_forall_ne_some.2 fun box shown => ?_
      have shown' := (taskBody_trimStart_iff.1 shown).append ('\n' :: rest)
      exact Option.some_ne_none box ((taskBody_trimStart_iff.2 shown').symm.trans read)
    rw [unshown, findFrom_taskMatch_of_none unbroken (taskMatch_eq_none read _)]
    rfl
  | some box =>
    rcases showsTask_append_lineBreak (taskBody_trimStart_iff.1 read) with shown | ⟨blank, shown⟩
    · obtain ⟨after, part, found⟩ := shown.exists_findFrom opens ('\n' :: rest)
      have unbroken' : '\n' ∉ after := fun among => unbroken (part.subset among)
      rw [taskBody_trimStart_iff.2 shown, found, findFrom_taskMatch_of_none unbroken'
        (taskMatch_of_not_opensLine not_opensLine_box _)]
      rfl
    · -- the search passes over the line, as if it were white space before the task
      obtain ⟨indent, mark, filling, after, rfl, blank', listed, takes⟩ := shown
      have opens' : OpensLine (some '\n') := .inr rfl
      have blank'' : ∀ c ∈ line ++ '\n' :: indent, isBlank c = true := by
        rw [List.forall_mem_append, List.forall_mem_cons]
        exact ⟨blank, by decide, blank'⟩
      have empty : trimStart line = [] := List.dropWhile_eq_nil_iff.2 blank
      have passed := findFrom_taskMatch_task opens blank'' listed takes after
      rw [List.append_assoc, List.cons_append] at passed
      rw [passed, findFrom_taskMatch_task opens' blank' listed takes, empty]
      rfl

/-- The search finds the task of the last line. -/
theorem findFrom_taskMatch_last (opens : OpensLine before) (unbroken : '\n' ∉ line) :
    taskMatch.findFrom 0 before line = (taskBody (trimStart line)).toList := by
  cases read : taskBody (trimStart line) with
  | none => exact findFrom_taskMatch_eq_nil unbroken (taskMatch_eq_none read _)
  | some box =>
    obtain ⟨after, part, found⟩ := (taskBody_trimStart_iff.1 read).exists_findFrom opens []
    have unbroken' : '\n' ∉ after := fun among => unbroken (part.subset among)
    rw [List.append_nil, List.append_nil, findFrom_taskMatch_eq_nil unbroken'
      (taskMatch_of_not_opensLine not_opensLine_box _)] at found
    exact found

theorem findFrom_taskMatch (opens : OpensLine before) (cs : List Char) :
    taskMatch.findFrom 0 before cs =
      (cs.splitOn '\n').filterMap fun line => taskBody (trimStart line) := by
  induction size : cs.length using Nat.strong_induction_on generalizing before cs with
  | _ n ih =>
    subst size
    by_cases broken : '\n' ∈ cs
    · obtain ⟨line, rest, rfl, unbroken⟩ := List.eq_append_cons_of_mem broken
      have shorter : rest.length < (line ++ '\n' :: rest).length := by
        rw [List.length_append, List.length_cons]
        omega
      rw [findFrom_taskMatch_line opens unbroken, ih _ shorter (.inr rfl) rest rfl,
        List.splitOn_append_cons_self_of_not_mem unbroken, List.filterMap_cons]
      cases taskBody (trimStart line) <;> rfl
    · rw [findFrom_taskMatch_last opens broken, List.splitOn_eq_singleton broken,
        List.filterMap_cons]
      cases taskBody (trimStart cs) <;> rfl

/-- **The tasks of a text are those of its lines, in their order.** -/
theorem tasks_eq (cs : List Char) :
    tasks cs = (cs.splitOn '\n').filterMap fun line => taskBody (trimStart line) :=
  findFrom_taskMatch (.inl rfl) cs

theorem mem_tasks_iff : box ∈ tasks cs ↔ ∃ line ∈ cs.splitOn '\n', ShowsTask box line := by
  simp only [tasks_eq, List.mem_filterMap, taskBody_trimStart_iff]

/-! ## Links -/

theorem dropLead?_eq_some_iff {lead : List Char} :
    dropLead? lead cs = some rest ↔ cs = lead ++ rest := by
  induction lead generalizing cs with
  | nil => simp [dropLead?]
  | cons l lead ih =>
    cases cs with
    | nil => simp [dropLead?]
    | cons c cs =>
      rw [dropLead?]
      by_cases same : l = c
      · simp [same, ih]
      · simp [same, Ne.symm same]

/-- An address is read just if its scheme has a character behind it. -/
theorem isSome_address?_iff {scheme : List Char} :
    (address? scheme cs).isSome = true ↔
      ∃ c rest, isBlank c = false ∧ cs = scheme ++ c :: rest := by
  rw [Option.isSome_iff_exists]
  simp only [address?, Option.bind_eq_bind, Option.bind_eq_some_iff, dropLead?_eq_some_iff]
  constructor
  · rintro ⟨n, rest, rfl, read⟩
    match rest, read with
    | c :: rest, read =>
      cases blank : isBlank c with
      | true => simp [blank] at read
      | false => exact ⟨c, rest, blank, rfl⟩
  · rintro ⟨c, rest, solid, rfl⟩
    exact ⟨_, c :: rest, rfl, if_neg (by simp [solid])⟩

/-- A text up to the first place of a character. -/
theorem takeWhile_ne_append {d : Char} {text : List Char} (absent : d ∉ text) (rest : List Char) :
    (text ++ d :: rest).takeWhile (· ≠ d) = text := by
  rw [List.takeWhile_append_of_pos, List.takeWhile_cons_of_neg, List.append_nil]
  · simp
  · intro c among
    rw [decide_eq_true_iff]
    rintro rfl
    exact absent among

theorem not_mem_takeWhile_ne (d : Char) (cs : List Char) : d ∉ cs.takeWhile (· ≠ d) := by
  intro among
  simpa using List.mem_takeWhile_imp among

theorem drop_length_takeWhile (p : Char → Bool) (cs : List Char) :
    cs.drop (cs.takeWhile p).length = cs.dropWhile p :=
  calc cs.drop (cs.takeWhile p).length
      = (cs.takeWhile p ++ cs.dropWhile p).drop (cs.takeWhile p).length := by
        rw [List.takeWhile_append_dropWhile]
    _ = cs.dropWhile p := List.drop_left

/-- A bracketed text is read just if there is a target behind it. -/
theorem isSome_bracketed?_iff :
    (bracketed? cs).isSome = true ↔ ∃ text target rest, ']' ∉ text ∧ target ≠ [] ∧ ')' ∉ target ∧
      cs = '[' :: (text ++ ']' :: '(' :: (target ++ ')' :: rest)) := by
  rw [Option.isSome_iff_exists]
  simp only [bracketed?, Option.bind_eq_bind, Option.bind_eq_some_iff, dropLead?_eq_some_iff,
    drop_length_takeWhile]
  constructor
  · rintro ⟨n, cs, rfl, behind, closed, read⟩
    split_ifs at read with short
    rw [Bool.or_eq_true, not_or, List.isEmpty_iff, List.isEmpty_iff] at short
    obtain ⟨c, rest, left⟩ := List.exists_cons_of_ne_nil short.2
    have stopped := List.head?_dropWhile_not (· ≠ ')') behind
    rw [left] at stopped
    obtain rfl : c = ')' := by simpa using stopped
    refine ⟨cs.takeWhile (· ≠ ']'), behind.takeWhile (· ≠ ')'), rest, not_mem_takeWhile_ne _ _,
      short.1, not_mem_takeWhile_ne _ _, ?_⟩
    rw [← left, List.takeWhile_append_dropWhile]
    exact congrArg ('[' :: ·) (closed ▸ List.takeWhile_append_dropWhile).symm
  · rintro ⟨text, target, rest, textual, filled, targeted, rfl⟩
    refine ⟨_, text ++ ']' :: '(' :: (target ++ ')' :: rest), rfl, target ++ ')' :: rest, ?_,
      if_neg ?_⟩
    · rw [← drop_length_takeWhile, takeWhile_ne_append textual, List.drop_left]
      rfl
    · rw [← drop_length_takeWhile, takeWhile_ne_append targeted, List.drop_left]
      simpa using filled

/-- **A text has a link just if an address or a bracketed text with a target stands in it.** -/
theorem hasLink_iff : hasLink cs = true ↔ ShowsAddress cs ∨ ShowsTarget cs := by
  have http : "http://".toList = ['h', 't', 't', 'p', ':', '/', '/'] := by decide
  have https : "https://".toList = ['h', 't', 't', 'p', 's', ':', '/', '/'] := by decide
  rw [hasLink, Pattern.occursIn_iff, ShowsAddress, http, https]
  simp only [linkMatch, Option.isSome_map, Option.orElse_eq_orElse, Option.orElse_eq_or,
    Option.isSome_or, Bool.or_eq_true, isSome_address?_iff, isSome_bracketed?_iff]
  constructor
  · rintro ⟨l, d, r, rfl, ⟨c, rest, solid, here⟩ | ⟨c, rest, solid, here⟩ |
      ⟨text, target, rest, textual, filled, targeted, here⟩⟩
    · exact .inl ⟨c, solid, .inl ⟨l, rest, by simp [here]⟩⟩
    · exact .inl ⟨c, solid, .inr ⟨l, rest, by simp [here]⟩⟩
    · exact .inr ⟨text, target, textual, filled, targeted, l, rest, by simp [here]⟩
  · rintro (⟨c, solid, ⟨l, rest, rfl⟩ | ⟨l, rest, rfl⟩⟩ |
      ⟨text, target, textual, filled, targeted, l, rest, rfl⟩)
    · exact ⟨l, 'h', _, by simp, .inl ⟨c, rest, solid, rfl⟩⟩
    · exact ⟨l, 'h', _, by simp, .inr (.inl ⟨c, rest, solid, rfl⟩)⟩
    · exact ⟨l, '[', _, by simp, .inr (.inr ⟨text, target, rest, textual, filled, targeted, rfl⟩)⟩

/-! ## The flags of a payload -/

/-- **The flags mean what they say, line by line.** For every text, the flags of its payload say
whether some line of its prose shows a task, whether some line shows an open one, and whether a link
stands in the prose. -/
theorem areFlagsOf_ofContent (content : String) (location : Option Location) :
    AreFlagsOf content (Payload.ofContent content location).property := by
  have listed : (Payload.ofContent content location).property.hasTaskList = true ↔
      ∃ box, box ∈ tasks (prose content.toList) := by
    rw [Payload.ofContent, Property.ofContent, Bool.not_eq_true', List.isEmpty_eq_false_iff_exists_mem]
  have opened : (Payload.ofContent content location).property.hasIncompleteTasks = true ↔
      .unticked ∈ tasks (prose content.toList) := by
    rw [Payload.ofContent, Property.ofContent, List.contains_iff_mem]
  constructor
  · simp only [listed, mem_tasks_iff]
    exact ⟨fun ⟨box, line, among, shown⟩ => ⟨line, among, box, shown⟩,
      fun ⟨line, among, box, shown⟩ => ⟨box, line, among, shown⟩⟩
  · rw [opened, mem_tasks_iff]
  · rw [opened, listed]
    exact fun among => ⟨_, among⟩
  · exact hasLink_iff

/-- A blank line stands before a task that is open, and another one behind it. -/
example : (Payload.ofContent "a\n \n\n - [ ] b\n\n* [x] [c](d)" none).property =
    ⟨true, true, false, true⟩ := by
  decide +kernel

end MemoTransfer.Content
