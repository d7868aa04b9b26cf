import MemoTransfer.Proofs.Json.Grammar

/-!
# How deep a text nests

A scan of a JSON text from the left needs to know only whether it stands in a string and in how many
lists and objects (`Place`). `Moves p bs q` says that the bytes lead from one place to another
without leaving the lists and objects around the first. A text that opens a list or an object and
closes it with its last byte is whole (`IsWhole`): it comes back to where it started at its end and
not before, so that no whole text is the beginning of another one (`IsWhole.eq_of_prefix`). A value
leads nowhere (`IsValue.moves`), and an object is whole (`IsObject.isWhole`).
-/

namespace MemoTransfer.Json

open MemoTransfer.Utf8 MemoTransfer.Number

/-! ## Places -/

/-- Where a scan stands, and in how many lists and objects. -/
inductive Place
  | outside (depth : Nat)
  /-- Between the quotes of a string. -/
  | inside (depth : Nat)
  /-- Between quotes, behind a backslash. -/
  | escaped (depth : Nat)
  deriving DecidableEq

namespace Place

/-- The number of lists and objects around the place. -/
def depth : Place → Nat
  | outside d | inside d | escaped d => d

/-- The place with so many lists and objects more around it. -/
def raise (k : Nat) : Place → Place
  | outside d => outside (d + k)
  | inside d => inside (d + k)
  | escaped d => escaped (d + k)

/-- The place behind the next byte. -/
def step : Place → UInt8 → Place
  | outside d, b =>
    match Char.ofUInt8 b with
    | '"' => inside d
    | '[' | '{' => outside (d + 1)
    | ']' | '}' => outside (d - 1)
    | _ => outside d
  | inside d, b =>
    match Char.ofUInt8 b with
    | '"' => outside d
    | '\\' => escaped d
    | _ => inside d
  | escaped d, _ => inside d

theorem raise_raise (p : Place) (k n : Nat) : (p.raise k).raise n = p.raise (k + n) := by
  cases p <;> simp [raise, Nat.add_assoc]

end Place

/-- The bytes lead from one place to another, and never to less than the given depth. -/
inductive Passes (floor : Nat) : Place → Bytes → Place → Prop
  | nil {p : Place} (h : floor ≤ p.depth) : Passes floor p [] p
  | cons {p q : Place} {b : UInt8} {bs : Bytes} (h : floor ≤ p.depth)
    (further : Passes floor (p.step b) bs q) : Passes floor p (b :: bs) q

namespace Passes

variable {floor floor' : Nat} {p q r : Place} {bs cs : Bytes}

theorem append (h : Passes floor p bs q) (h' : Passes floor q cs r) :
    Passes floor p (bs ++ cs) r := by
  induction h with
  | nil _ => exact h'
  | cons le _ ih => exact .cons le (ih h')

theorem lower (h : Passes floor p bs q) (le : floor' ≤ floor) : Passes floor' p bs q := by
  induction h with
  | nil h => exact .nil (Nat.le_trans le h)
  | cons h _ ih => exact .cons (Nat.le_trans le h) ih

theorem foldl (h : Passes floor p bs q) : bs.foldl Place.step p = q := by
  induction h with
  | nil _ => rfl
  | cons _ _ ih => exact ih

/-- No beginning of the bytes leads to less than the depth. -/
theorem le_depth (h : Passes floor p bs q) (before : cs <+: bs) :
    floor ≤ (cs.foldl Place.step p).depth := by
  induction h generalizing cs with
  | nil le =>
    rw [List.prefix_nil.1 before]
    exact le
  | cons le _ ih =>
    rcases List.prefix_cons_iff.1 before with rfl | ⟨ds, rfl, h⟩
    · exact le
    · exact ih h

end Passes

/-- From the first place the bytes lead to the second, whatever is around it, and stay in what is
around it. -/
def Moves (p : Place) (bs : Bytes) (q : Place) : Prop :=
  ∀ k, Passes k (p.raise k) bs (q.raise k)

namespace Moves

variable {p q r : Place} {a : Nat} {b : UInt8} {bs cs : Bytes}

theorem le_depth_raise (p : Place) (k : Nat) : k ≤ (p.raise k).depth := by
  cases p <;> exact Nat.le_add_left _ _

theorem nil (p : Place) : Moves p [] p := fun k => .nil (le_depth_raise p k)

theorem append (h : Moves p bs q) (h' : Moves q cs r) : Moves p (bs ++ cs) r :=
  fun k => (h k).append (h' k)

theorem raise (h : Moves p bs q) (n : Nat) : Moves (p.raise n) bs (q.raise n) := by
  intro k
  rw [Place.raise_raise, Place.raise_raise]
  exact (h (n + k)).lower (Nat.le_add_left k n)

theorem single (h : ∀ k, (p.raise k).step b = q.raise k) : Moves p [b] q := by
  intro k
  refine .cons (le_depth_raise p k) ?_
  rw [h]
  exact .nil (le_depth_raise q k)

theorem cons (h : Moves p [b] q) (h' : Moves q bs r) : Moves p (b :: bs) r := h.append h'

end Moves

/-! ## Bytes -/

/-- A byte that opens nothing and closes nothing. -/
def IsNeutral (b : UInt8) : Prop := Char.ofUInt8 b ∉ ['"', '[', ']', '\x7b', '}']

instance (b : UInt8) : Decidable (IsNeutral b) := inferInstanceAs (Decidable ¬_)

theorem isNeutral_of_eq {b : UInt8} {c : Char} (e : Char.ofUInt8 b = c)
    (h : c ∉ ['"', '[', ']', '\x7b', '}']) : IsNeutral b := by
  rwa [IsNeutral, e]

theorem isNeutral_of_isSpace {b : UInt8} (h : isSpace b = true) : IsNeutral b := by
  simp only [isSpace, Bool.or_eq_true, decide_eq_true_eq] at h
  rcases h with ((rfl | rfl) | rfl) | rfl <;> decide

theorem isNeutral_of_isDigit {b : UInt8} (h : (Char.ofUInt8 b).isDigit = true) : IsNeutral b := by
  intro hb
  generalize Char.ofUInt8 b = c at h hb
  revert h
  fin_cases hb <;> decide

namespace Moves

variable {q : Place} {d : Nat} {b : UInt8} {bs : Bytes}

theorem opening (h : Char.ofUInt8 b ∈ ['[', '\x7b']) :
    Moves (.outside d) [b] (.outside (d + 1)) := by
  refine single fun k => ?_
  simp only [List.mem_cons, List.not_mem_nil, or_false] at h
  rcases h with h | h <;> simp only [Place.raise, Place.step, h, Nat.add_right_comm]

theorem closing (h : Char.ofUInt8 b ∈ [']', '}']) :
    Moves (.outside (d + 1)) [b] (.outside d) := by
  refine single fun k => ?_
  simp only [List.mem_cons, List.not_mem_nil, or_false] at h
  rcases h with h | h <;>
    simp only [Place.raise, Place.step, h, Nat.add_right_comm, Nat.add_sub_cancel]

theorem neutral (h : IsNeutral b) : Moves (.outside d) [b] (.outside d) := by
  refine single fun k => ?_
  simp only [IsNeutral, List.mem_cons, List.not_mem_nil, or_false, not_or] at h
  obtain ⟨hq, hl, hl', ho, ho'⟩ := h
  simp only [Place.raise, Place.step]

theorem neutrals (h : ∀ b ∈ bs, IsNeutral b) : Moves (.outside d) bs (.outside d) := by
  induction bs with
  | nil => exact nil _
  | cons b bs ih =>
    exact (neutral (h b List.mem_cons_self)).cons (ih fun b' hb => h b' (List.mem_cons_of_mem b hb))

theorem neutralChars {cs : List Char} (h : ∀ c ∈ cs, c.toNat < 128 ∧ IsNeutral (byteOf c)) :
    Moves (.outside d) (bytes cs) (.outside d) := by
  rw [bytes_eq_map fun c hc => (h c hc).1]
  refine .neutrals fun b hb => ?_
  obtain ⟨c, hc, rfl⟩ := List.mem_map.1 hb
  exact (h c hc).2

theorem openQuote (h : Char.ofUInt8 b = '"') : Moves (.outside d) [b] (.inside d) :=
  single fun k => by simp only [Place.raise, Place.step, h]

theorem closeQuote (h : Char.ofUInt8 b = '"') : Moves (.inside d) [b] (.outside d) :=
  single fun k => by simp only [Place.raise, Place.step, h]

theorem backslash (h : Char.ofUInt8 b = '\\') : Moves (.inside d) [b] (.escaped d) :=
  single fun k => by simp only [Place.raise, Place.step, h]

theorem escaped (b : UInt8) : Moves (.escaped d) [b] (.inside d) := single fun _ => rfl

/-- A byte between quotes other than a quote and a backslash. -/
theorem plain (hq : Char.ofUInt8 b ≠ '"') (hs : Char.ofUInt8 b ≠ '\\') :
    Moves (.inside d) [b] (.inside d) :=
  single fun k => by simp only [Place.raise, Place.step]

theorem plains (h : ∀ b ∈ bs, Char.ofUInt8 b ≠ '"' ∧ Char.ofUInt8 b ≠ '\\') :
    Moves (.inside d) bs (.inside d) := by
  induction bs with
  | nil => exact nil _
  | cons b bs ih =>
    have hb := h b List.mem_cons_self
    exact (plain hb.1 hb.2).cons (ih fun b' hb => h b' (List.mem_cons_of_mem b hb))

end Moves

/-! ## Written values -/

/-- What stands between the quotes of a string does not lead out of it. -/
theorem IsBody.moves {bs : Bytes} (h : IsBody bs) (d : Nat) :
    Moves (.inside d) bs (.inside d) := by
  have backslash : Moves (.inside d) [byteOf '\\'] (.escaped d) := .backslash (by decide)
  induction h with
  | nil => exact .nil _
  | plain hp _ ih => exact (Moves.plain hp.1 hp.2.1).cons ih
  | short _ _ ih => exact backslash.cons ((Moves.escaped _).cons ih)
  | unit hu _ ih =>
    exact backslash.cons ((Moves.escaped _).cons ((Moves.plains hu.ne_quote).append ih))

theorem AllSpace.moves {bs : Bytes} (h : AllSpace bs) (d : Nat) :
    Moves (.outside d) bs (.outside d) :=
  .neutrals fun b hb => isNeutral_of_isSpace (h b hb)

theorem moves_numeral {n : Numeral} (h : n.WellFormed) {cs : List Char}
    (hp : SpellsPower n.power cs) (d : Nat) :
    Moves (.outside d) (bytes (n.front ++ cs)) (.outside d) := by
  refine .neutralChars fun c hc => ?_
  rcases h.of_mem hp hc with hd | hm
  · have ascii := toNat_lt_of_isDigit hd
    exact ⟨ascii, isNeutral_of_isDigit (by rwa [ofUInt8_byteOf ascii])⟩
  · fin_cases hm <;> decide

theorem Entry.moves (e : Entry) {d : Nat} (h : Moves (.outside d) e.value (.outside d)) :
    Moves (.outside d) e.text (.outside d) :=
  (Moves.openQuote (by decide)).cons ((e.isBody.moves d).append
    ((Moves.closeQuote (by decide)).cons ((e.allSpace_gap.moves d).append
      ((Moves.neutral (by decide)).cons ((e.allSpace_space.moves d).append h)))))

theorem Parts.moves {isFirst : Bool} {parts : List Bytes} {bs : Bytes}
    (hp : Parts isFirst parts bs) {d : Nat}
    (h : ∀ part ∈ parts, Moves (.outside d) part (.outside d)) :
    Moves (.outside d) bs (.outside d) := by
  induction hp with
  | nil hgap => exact hgap.moves d
  | first hspace _ ih =>
    exact (hspace.moves d).append ((h _ List.mem_cons_self).append
      (ih fun part hp => h part (List.mem_cons_of_mem _ hp)))
  | next hgap hspace _ ih =>
    exact (hgap.moves d).append ((Moves.neutral (by decide)).cons ((hspace.moves d).append
      ((h _ List.mem_cons_self).append (ih fun part hp => h part (List.mem_cons_of_mem _ hp)))))

/-- **A value opens and closes nothing but its own parts.** -/
theorem IsValue.moves {bs : Bytes} (h : IsValue bs) (d : Nat) :
    Moves (.outside d) bs (.outside d) := by
  induction h generalizing d with
  | word hw =>
    simp only [List.mem_cons, List.not_mem_nil, or_false] at hw
    rcases hw with rfl | rfl | rfl <;>
    · refine .neutralChars fun c hc => ?_
      fin_cases hc <;> decide
  | number hn hp => exact moves_numeral hn hp d
  | text hb =>
    exact (Moves.openQuote (by decide)).cons ((hb.moves d).append (.closeQuote (by decide)))
  | list _ hl ih =>
    obtain ⟨inner, hi, rfl⟩ := hl
    exact (Moves.opening (by decide)).cons
      ((hi.moves fun part hp => ih part hp (d + 1)).append (.closing (by decide)))
  | object _ ho ih =>
    obtain ⟨inner, hi, rfl⟩ := ho
    refine (Moves.opening (by decide)).cons ((hi.moves fun part hp => ?_).append
      (.closing (by decide)))
    obtain ⟨e, he, rfl⟩ := List.mem_map.1 hp
    exact e.moves (ih e he (d + 1))

/-! ## Whole texts -/

/-- A text that opens a list or an object with its first byte and closes it with its last one. -/
def IsWhole (bs : Bytes) : Prop :=
  ∃ first inner last, bs = first :: (inner ++ [last]) ∧ Char.ofUInt8 first ∈ ['[', '\x7b'] ∧
    Moves (.outside 0) inner (.outside 0) ∧ Char.ofUInt8 last ∈ [']', '}']

/-- **No whole text is the beginning of another one.** -/
theorem IsWhole.eq_of_prefix {bs cs : Bytes} (hb : IsWhole bs) (hc : IsWhole cs)
    (h : bs <+: cs) : bs = cs := by
  obtain ⟨first, inner, last, rfl, opens, moves, closes⟩ := hb
  obtain ⟨first', inner', last', rfl, opens', moves', closes'⟩ := hc
  obtain ⟨rfl, within⟩ := List.cons_prefix_cons.1 h
  rcases List.prefix_concat_iff.1 within with e | short
  · rw [e]
  · -- at its end the shorter text is out of all brackets, and the longer one still in the first
    have out : (inner ++ [last]).foldl Place.step (.outside 1) = .outside 0 := by
      have moves : Moves (.outside 1) inner (.outside 1) := moves.raise 1
      exact ((moves.append (.closing closes)) 0).foldl
    have deep : 1 ≤ ((inner ++ [last]).foldl Place.step (.outside 1)).depth :=
      (moves' 1).le_depth short
    rw [out] at deep
    exact absurd deep (by decide)

theorem IsObject.isWhole {entries : List Entry} {bs : Bytes} (ho : IsObject entries bs)
    (h : ∀ e ∈ entries, IsValue e.value) : IsWhole bs := by
  obtain ⟨inner, hi, rfl⟩ := ho
  refine ⟨_, inner, _, rfl, by decide, hi.moves fun part hp => ?_, by decide⟩
  obtain ⟨e, he, rfl⟩ := List.mem_map.1 hp
  exact e.moves ((h e he).moves 0)

end MemoTransfer.Json
