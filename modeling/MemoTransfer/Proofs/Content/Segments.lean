import MemoTransfer.Memo.Derived
import MemoTransfer.Proofs.Content.Matches
import Mathlib.Data.List.Infix

/-!
# Texts in segments

A text that is put together from segments: text without marks of code, inline code and fenced code,
with text between any two that are code. The pass for fenced code takes out the fenced segments and
nothing else (`blankFrom_fencedCode_written`), the pass for inline code takes out the inline ones
(`blankFrom_inlineCode_written`). So the prose of the text is its text segments with a space for
each code segment, and nothing that stands in code is seen in the payload
(`Segmented.ofContent_content`).
-/

namespace MemoTransfer.Content

/-- The mark at both ends of fenced code. -/
def fence : List Char := [tick, tick, tick]

/-- A segment of a text, without the marks of its code. -/
inductive Segment
  | text (cs : List Char)
  | inline (code : List Char)
  | fenced (code : List Char)

namespace Segment

/-- The segment is code. -/
def IsCode : Segment → Prop
  | text _ => False
  | inline _ | fenced _ => True

/-- The segment is text that is not empty. -/
def IsFilled : Segment → Prop
  | text cs => cs ≠ []
  | inline _ | fenced _ => False

/-- The segment can be read back: text has no marks of code, inline code is not empty and has
neither marks nor line breaks, and fenced code has no fence and does not end in a mark. -/
def IsProper : Segment → Prop
  | text cs => tick ∉ cs
  | inline code => code ≠ [] ∧ tick ∉ code ∧ '\n' ∉ code
  | fenced code => ¬fence <:+: code ∧ code.getLast? ≠ some tick

instance : DecidablePred IsProper
  | text cs => inferInstanceAs (Decidable (tick ∉ cs))
  | inline code => inferInstanceAs (Decidable (code ≠ [] ∧ tick ∉ code ∧ '\n' ∉ code))
  | fenced code => inferInstanceAs (Decidable (¬fence <:+: code ∧ code.getLast? ≠ some tick))

/-- The characters of the segment. -/
def chars : Segment → List Char
  | text cs => cs
  | inline code => tick :: (code ++ [tick])
  | fenced code => fence ++ code ++ fence

/-- The segment with a space in the place of fenced code. -/
def unfenced : Segment → Segment
  | text cs => text cs
  | inline code => inline code
  | fenced _ => text [' ']

/-- The segment with a space in the place of code. -/
def blanked : Segment → Segment
  | text cs => text cs
  | inline _ | fenced _ => text [' ']

/-- Two segments that are the same text, or both code. -/
inductive SameText : Segment → Segment → Prop
  | text (cs : List Char) : SameText (text cs) (text cs)
  | code {s s' : Segment} (first : s.IsCode) (second : s'.IsCode) : SameText s s'

end Segment

/-- The characters of some segments. -/
def written (segments : List Segment) : List Char := segments.flatMap Segment.chars

/-- Text stands between the start and the first segment that is code. -/
def IsClear (segments : List Segment) : Prop :=
  ∀ between b after, segments = between ++ b :: after → b.IsCode → ∃ s ∈ between, s.IsFilled

/-- Text stands between any two segments that are code. -/
def IsApart (segments : List Segment) : Prop :=
  ∀ before a between b after, segments = before ++ a :: (between ++ b :: after) →
    a.IsCode → b.IsCode → ∃ s ∈ between, s.IsFilled

/-- A text in segments that can be read back. -/
structure Segmented where
  segments : List Segment
  proper : ∀ s ∈ segments, s.IsProper
  apart : IsApart segments

/-- The text. -/
def Segmented.content (t : Segmented) : String := .ofList (written t.segments)

/-- The text with a space in the place of each code segment. -/
def Segmented.blankedContent (t : Segmented) : String :=
  .ofList (written (t.segments.map Segment.blanked))

variable {s : Segment} {segments : List Segment} {c : Char} {cs code rest : List Char}

/-! ## What stands between code -/

theorem isClear_nil : IsClear [] := by
  intro between b after parted
  simp at parted

theorem isClear_cons_iff :
    IsClear (s :: segments) ↔ s.IsFilled ∨ ¬s.IsCode ∧ IsClear segments := by
  constructor
  · intro clear
    by_cases filled : s.IsFilled
    · exact .inl filled
    · refine .inr ⟨fun code => ?_, fun between b after parted code => ?_⟩
      · obtain ⟨_, among, _⟩ := clear [] s segments rfl code
        simp at among
      · obtain ⟨x, among, there⟩ := clear (s :: between) b after (by rw [parted]; rfl) code
        rcases List.mem_cons.1 among with rfl | among
        · exact absurd there filled
        · exact ⟨x, among, there⟩
  · rintro h (_ | ⟨x, between⟩) b after parted code
    · cases parted
      rcases h with filled | ⟨plain, -⟩
      · cases s with
        | text cs => exact code.elim
        | inline _ | fenced _ => exact filled.elim
      · exact absurd code plain
    · cases parted
      rcases h with filled | ⟨-, clear⟩
      · exact ⟨_, List.mem_cons_self, filled⟩
      · obtain ⟨x, among, there⟩ := clear between b after rfl code
        exact ⟨x, List.mem_cons_of_mem _ among, there⟩

theorem isApart_nil : IsApart [] := by
  intro before a between b after parted
  simp at parted

theorem isApart_cons_iff :
    IsApart (s :: segments) ↔ (s.IsCode → IsClear segments) ∧ IsApart segments := by
  constructor
  · intro apart
    refine ⟨fun code between b after parted => ?_, fun before a between b after parted => ?_⟩
    · exact apart [] s between b after (by rw [parted]; rfl) code
    · exact apart (s :: before) a between b after (by rw [parted]; rfl)
  · rintro ⟨clear, apart⟩ (_ | ⟨x, before⟩) a between b after parted code
    · cases parted
      exact clear code between b after rfl
    · cases parted
      exact apart before a between b after rfl code

/-- Clear segments do not begin with a mark of code. -/
theorem IsClear.head?_written (clear : IsClear segments) (proper : ∀ s ∈ segments, s.IsProper) :
    (written segments).head? ≠ some tick := by
  induction segments with
  | nil => exact fun none => by cases none
  | cons s segments ih =>
    rw [List.forall_mem_cons] at proper
    rcases isClear_cons_iff.1 clear with filled | ⟨plain, further⟩
    · match s, filled with
      | .text (c :: cs), _ =>
        rintro ⟨⟩
        exact proper.1 List.mem_cons_self
      | .text [], filled => exact absurd rfl filled
    · match s, plain with
      | .text (c :: cs), _ =>
        rintro ⟨⟩
        exact proper.1 List.mem_cons_self
      | .text [], _ => exact ih further proper.2
      | .inline _, plain | .fenced _, plain => exact absurd trivial plain

/-! ## The passes at one place -/

theorem fencedCode_startsWith : fencedCode.StartsWith tick := by
  intro c other before rest
  rw [fencedCode, if_neg]
  rw [List.take_succ_cons, List.cons.injEq]
  exact fun same => other same.1

theorem inlineCode_startsWith : inlineCode.StartsWith tick := fun other _ _ => if_neg other

/-- A single mark does not begin fenced code. -/
theorem fencedCode_of_single (h : cs.head? ≠ some tick) (before : Option Char) :
    fencedCode before (tick :: cs) = none := by
  rw [fencedCode, if_neg]
  cases cs with
  | nil => exact fun same => by cases same
  | cons d cs =>
    intro same
    simp only [List.take_succ_cons, List.cons.injEq] at same
    exact h (congrArg some same.2.1)

/-- The next fence is the one behind the code. -/
theorem lengthToFence?_append (unfenced : ¬fence <:+: code) (ends : code.getLast? ≠ some tick)
    (rest : List Char) : lengthToFence? (code ++ (fence ++ rest)) = some code.length := by
  induction code with
  | nil => rfl
  | cons c code ih =>
    have later : code.getLast? ≠ some tick := by
      intro last
      rw [List.getLast?_cons, last] at ends
      exact ends rfl
    have none_here : (c :: (code ++ (fence ++ rest))).take 3 ≠ fence := by
      intro here
      match code, here with
      | [], here =>
        rw [List.take_succ_cons, fence, List.cons.injEq] at here
        exact ends (congrArg some here.1)
      | [d], here =>
        simp only [List.cons_append, List.take_succ_cons, fence, List.cons.injEq] at here
        exact ends (congrArg some here.2.1)
      | d :: e :: code, here =>
        refine unfenced (List.IsPrefix.isInfix ⟨code, ?_⟩)
        rw [← here]
        rfl
    have next := ih (fun among => unfenced (List.infix_cons among)) later
    rw [List.cons_append, lengthToFence?, ← fence, if_neg none_here, next]
    rfl

/-- Fenced code is one match, whatever follows. -/
theorem fencedCode_fenced (proper : (Segment.fenced code).IsProper) (before : Option Char)
    (rest : List Char) :
    fencedCode before ((Segment.fenced code).chars ++ rest) =
      some ((), (Segment.fenced code).chars.length) := by
  have opened : (Segment.fenced code).chars ++ rest = fence ++ (code ++ (fence ++ rest)) := by
    simp only [Segment.chars, List.append_assoc]
  have marked : (fence ++ (code ++ (fence ++ rest))).take 3 = [tick, tick, tick] := rfl
  have closed : lengthToFence? ((fence ++ (code ++ (fence ++ rest))).drop 3) = some code.length :=
    lengthToFence?_append proper.1 proper.2 rest
  have size : (Segment.fenced code).chars.length = code.length + 6 := by
    simp only [Segment.chars, fence, List.length_append, List.length_cons, List.length_nil]
    omega
  rw [opened, fencedCode, if_pos marked, closed, size]
  rfl

/-- Inline code is one match, whatever follows. -/
theorem inlineCode_inline (proper : (Segment.inline code).IsProper) (before : Option Char)
    (rest : List Char) :
    inlineCode before ((Segment.inline code).chars ++ rest) =
      some ((), (Segment.inline code).chars.length) := by
  obtain ⟨filled, unmarked, unbroken⟩ := proper
  have opened : (Segment.inline code).chars ++ rest = tick :: (code ++ tick :: rest) := by
    simp only [Segment.chars, List.cons_append, List.append_assoc, List.nil_append]
  have body : (code ++ tick :: rest).takeWhile (fun d => d ≠ tick && d ≠ '\n') = code := by
    rw [List.takeWhile_append_of_pos]
    · simp
    · intro d among
      have first : d ≠ tick := fun same => unmarked (same ▸ among)
      have second : d ≠ '\n' := fun same => unbroken (same ▸ among)
      simp [first, second]
  have size : (Segment.inline code).chars.length = code.length + 2 := by
    simp only [Segment.chars, List.length_append, List.length_cons, List.length_nil]
  rw [opened, inlineCode, if_pos rfl, body, size]
  simp [filled]

/-! ## The passes over a segment -/

/-- The first pass leaves text and inline code, and makes fenced code a space. -/
theorem blankFrom_fencedCode_chars (before : Option Char) (proper : s.IsProper)
    (clear : s.IsCode → rest.head? ≠ some tick) :
    fencedCode.blankFrom 0 before (s.chars ++ rest) =
      s.unfenced.chars ++ fencedCode.blankFrom 0 (s.chars.getLast?.or before) rest := by
  cases s with
  | text cs => exact fencedCode_startsWith.blankFrom_append proper before rest
  | inline code =>
    obtain ⟨filled, unmarked, -⟩ := proper
    -- neither mark has another one behind it
    have first : (code ++ ([tick] ++ rest)).head? ≠ some tick := by
      cases code with
      | nil => exact absurd rfl filled
      | cons d code => exact fun same => unmarked (Option.some.inj same ▸ List.mem_cons_self)
    have last : (Segment.inline code).chars.getLast?.or before = some tick := by
      rw [Segment.chars, Pattern.getLast?_cons_or, List.getLast?_concat, Option.some_or]
    rw [last, Segment.chars, List.cons_append, List.append_assoc,
      Pattern.blankFrom_of_none (fencedCode_of_single first _),
      fencedCode_startsWith.blankFrom_append unmarked, List.cons_append, List.nil_append,
      Pattern.blankFrom_of_none (fencedCode_of_single (clear trivial) _), Segment.unfenced,
      Segment.chars, List.cons_append, List.append_assoc]
    rfl
  | fenced code => exact Pattern.blankFrom_match (fencedCode_fenced proper before rest)

/-- The second pass makes inline code a space. -/
theorem blankFrom_inlineCode_chars (proper : s.IsProper) (before : Option Char)
    (rest : List Char) :
    inlineCode.blankFrom 0 before (s.unfenced.chars ++ rest) =
      s.blanked.chars ++ inlineCode.blankFrom 0 (s.unfenced.chars.getLast?.or before) rest := by
  cases s with
  | text cs => exact inlineCode_startsWith.blankFrom_append proper before rest
  | inline code => exact Pattern.blankFrom_match (inlineCode_inline proper before rest)
  | fenced code => exact Pattern.blankFrom_of_none (inlineCode_startsWith (by decide) _ _)

/-! ## The passes over a text -/

/-- **The pass for fenced code takes out the fenced segments and nothing else.** -/
theorem blankFrom_fencedCode_written (proper : ∀ s ∈ segments, s.IsProper)
    (apart : IsApart segments) (before : Option Char) :
    fencedCode.blankFrom 0 before (written segments) =
      written (segments.map Segment.unfenced) := by
  induction segments generalizing before with
  | nil => rfl
  | cons s segments ih =>
    rw [List.forall_mem_cons] at proper
    obtain ⟨clear, apart⟩ := isApart_cons_iff.1 apart
    have step := blankFrom_fencedCode_chars before proper.1 fun code =>
      (clear code).head?_written proper.2
    rw [ih proper.2 apart] at step
    exact step

/-- **The pass for inline code takes out the inline segments.** -/
theorem blankFrom_inlineCode_written (proper : ∀ s ∈ segments, s.IsProper)
    (before : Option Char) :
    inlineCode.blankFrom 0 before (written (segments.map Segment.unfenced)) =
      written (segments.map Segment.blanked) := by
  induction segments generalizing before with
  | nil => rfl
  | cons s segments ih =>
    rw [List.forall_mem_cons] at proper
    have step := blankFrom_inlineCode_chars proper.1 before
      (written (segments.map Segment.unfenced))
    rw [ih proper.2] at step
    exact step

/-- A text without marks of code is its own prose. -/
theorem prose_of_unmarked (unmarked : tick ∉ cs) : prose cs = cs := by
  rw [prose, fencedCode_startsWith.blankAll_eq unmarked, inlineCode_startsWith.blankAll_eq unmarked]

/-- **The prose of a text in segments is its text, with a space for each code segment.** -/
theorem prose_written (proper : ∀ s ∈ segments, s.IsProper) (apart : IsApart segments) :
    prose (written segments) = written (segments.map Segment.blanked) := by
  rw [prose, Pattern.blankAll, Pattern.blankAll, blankFrom_fencedCode_written proper apart,
    blankFrom_inlineCode_written proper]

/-- A segment stands somewhere in the text. -/
theorem exists_written (among : s ∈ segments) :
    ∃ before rest, written segments = before ++ (s.chars ++ rest) := by
  obtain ⟨before, rest, rfl⟩ := List.append_of_mem among
  exact ⟨written before, written rest, by simp [written]⟩

theorem not_mem_written (proper : ∀ s ∈ segments, s.IsProper)
    (plain : ∀ s ∈ segments, ¬s.IsCode) : tick ∉ written segments := by
  rw [written, List.mem_flatMap]
  rintro ⟨s, among, marked⟩
  match s, among, marked with
  | .text _, among, marked => exact proper _ among marked
  | .inline _, among, _ | .fenced _, among, _ => exact plain _ among trivial

theorem not_mem_written_blanked (proper : ∀ s ∈ segments, s.IsProper) :
    tick ∉ written (segments.map Segment.blanked) := by
  refine not_mem_written (List.forall_mem_map.2 fun s among => ?_)
    (List.forall_mem_map.2 fun s _ => ?_)
  · match s, among with
    | .text _, among => exact proper _ among
    | .inline _, _ | .fenced _, _ => exact (by decide : tick ∉ [' '])
  · cases s <;> exact id

/-- **A text in segments has code just if a segment is code.** -/
theorem hasCode_written (proper : ∀ s ∈ segments, s.IsProper) :
    hasCode (written segments) = true ↔ ∃ s ∈ segments, s.IsCode := by
  rw [hasCode, Bool.or_eq_true]
  constructor
  · intro found
    by_contra plain
    push Not at plain
    have unmarked := not_mem_written proper plain
    rcases found with found | found
    · exact fencedCode_startsWith.not_occursIn unmarked found
    · exact inlineCode_startsWith.not_occursIn unmarked found
  · rintro ⟨s, among, code⟩
    obtain ⟨before, rest, parted⟩ := exists_written among
    rw [parted, Pattern.occursIn_iff, Pattern.occursIn_iff]
    cases s with
    | text cs => exact code.elim
    | inline code =>
      refine .inr ⟨before, tick, _, rfl, ?_⟩
      exact Option.isSome_iff_exists.2 ⟨_, inlineCode_inline (proper _ among) _ rest⟩
    | fenced code =>
      refine .inl ⟨before, tick, _, rfl, ?_⟩
      exact Option.isSome_iff_exists.2 ⟨_, fencedCode_fenced (proper _ among) _ rest⟩

/-! ## What is seen of a text -/

theorem Segment.SameText.blanked_eq {s' : Segment} (h : s.SameText s') : s.blanked = s'.blanked := by
  cases h with
  | text cs => rfl
  | code first second =>
    match s, s', first, second with
    | .inline _, .inline _, _, _ | .inline _, .fenced _, _, _ | .fenced _, .inline _, _, _
    | .fenced _, .fenced _, _, _ => rfl

theorem Segment.SameText.isCode_iff {s' : Segment} (h : s.SameText s') : s.IsCode ↔ s'.IsCode := by
  cases h with
  | text cs => exact .rfl
  | code first second => exact ⟨fun _ => second, fun _ => first⟩

theorem map_blanked_eq {segments' : List Segment}
    (h : List.Forall₂ Segment.SameText segments segments') :
    segments.map Segment.blanked = segments'.map Segment.blanked := by
  induction h with
  | nil => rfl
  | cons here _ ih => rw [List.map_cons, List.map_cons, here.blanked_eq, ih]

theorem exists_isCode_iff {segments' : List Segment}
    (h : List.Forall₂ Segment.SameText segments segments') :
    (∃ s ∈ segments, s.IsCode) ↔ ∃ s ∈ segments', s.IsCode := by
  induction h with
  | nil => exact .rfl
  | cons here _ ih => rw [List.exists_mem_cons_iff, List.exists_mem_cons_iff, here.isCode_iff, ih]

namespace Segmented

variable (t : Segmented)

theorem prose_content : prose t.content.toList = written (t.segments.map Segment.blanked) := by
  rw [content, String.toList_ofList, prose_written t.proper t.apart]

/-- The text and the text with its code blanked have the same prose. -/
theorem prose_content_eq : prose t.content.toList = prose t.blankedContent.toList := by
  rw [prose_content, blankedContent, String.toList_ofList,
    prose_of_unmarked (not_mem_written_blanked t.proper)]

theorem hasCode_content : hasCode t.content.toList = true ↔ ∃ s ∈ t.segments, s.IsCode := by
  rw [content, String.toList_ofList, hasCode_written t.proper]

/-- What stands in code is not seen. -/
theorem ofContent_congr {t u : Segmented} (same : t.segments.Forall₂ Segment.SameText u.segments)
    (location : Option Location) :
    Payload.ofContent t.content location = Payload.ofContent u.content location := by
  have proses : prose t.content.toList = prose u.content.toList := by
    rw [prose_content, prose_content, map_blanked_eq same]
  have codes : hasCode t.content.toList = hasCode u.content.toList := by
    rw [Bool.eq_iff_iff, hasCode_content, hasCode_content, exists_isCode_iff same]
  rw [Payload.ofContent, Payload.ofContent, Property.ofContent, Property.ofContent, proses, codes]

/-- **Code never leaks into tags or flags.** A text in segments is said to have code just if a
segment is code. Its tags, links and tasks are those of the text with a space for each code segment,
so they are the same whatever stands in the code. -/
theorem ofContent_content (location : Option Location) :
    ((Payload.ofContent t.content location).property.hasCode = true ↔
        ∃ s ∈ t.segments, s.IsCode) ∧
      (Payload.ofContent t.content location).tags =
        (Payload.ofContent t.blankedContent location).tags ∧
      (Payload.ofContent t.content location).property.hasLink =
        (Payload.ofContent t.blankedContent location).property.hasLink ∧
      (Payload.ofContent t.content location).property.hasTaskList =
        (Payload.ofContent t.blankedContent location).property.hasTaskList ∧
      (Payload.ofContent t.content location).property.hasIncompleteTasks =
        (Payload.ofContent t.blankedContent location).property.hasIncompleteTasks ∧
      ∀ u : Segmented, List.Forall₂ Segment.SameText t.segments u.segments →
        Payload.ofContent t.content location = Payload.ofContent u.content location := by
  refine ⟨t.hasCode_content, ?_, ?_, ?_, ?_, fun _ others => ofContent_congr others location⟩
  all_goals simp only [Payload.ofContent, Property.ofContent, t.prose_content_eq]

/-- Inline code and fenced code before a tag, the fenced code with a mark of code and a task in it.
-/
def marked : Segmented where
  segments := [.inline "#a".toList, .text " and ".toList, .fenced "\x60#b\n- [ ] c".toList,
    .text " #d".toList]
  proper := by decide
  apart := by
    simp [isApart_cons_iff, isClear_cons_iff, isApart_nil, isClear_nil, Segment.IsCode,
      Segment.IsFilled]

/-- Only the tag outside the code is seen, and the task in it is not. -/
theorem ofContent_content_marked :
    marked.content = "\x60#a\x60 and \x60\x60\x60\x60#b\n- [ ] c\x60\x60\x60 #d" ∧
      marked.blankedContent = "  and   #d" ∧
      (Payload.ofContent marked.content none).tags = ["d"] ∧
      (Payload.ofContent marked.content none).property.hasCode = true ∧
      (Payload.ofContent marked.content none).property.hasTaskList = false := by
  obtain ⟨code, tags, -, tasks, -, -⟩ := marked.ofContent_content none
  refine ⟨by decide +kernel, by decide +kernel, ?_, code.2 ⟨_, List.mem_cons_self, trivial⟩, ?_⟩
  · rw [tags]
    decide +kernel
  · rw [tasks]
    decide +kernel

end Segmented

end MemoTransfer.Content
