import Mathlib.Data.List.TakeWhile
import MemoTransfer.Json.Reader.Record
import MemoTransfer.Proofs.Json.Ensures
import MemoTransfer.Proofs.Json.Nesting

/-!
# What a reader takes

`Crosses p act q bs` says that whatever part of `bs` the action takes leads from the place `p` to
the place that `q` names for its value. A reader of a value, a part of one or a mark between values
takes from a text a part that opens and closes nothing but its own lists and objects (`Balanced`);
the readers are gone through in the order in which they are built, so that a record is one more of
them. More is known of a record, which is written as a list or an object: white space and a whole
text (`Record.isWhole_of_yields`).
-/

namespace MemoTransfer.Json

open MemoTransfer.Utf8

variable {α β σ : Type}

/-- What the action takes from the text leads from the place to one that fits the value and the
rest of the text. -/
def Crosses (p : Place) (act : Reader α) (Q : α → Bytes → Place → Prop) (bs : Bytes) : Prop :=
  ∀ v rest, Yields act bs v rest → ∃ used q, bs = used ++ rest ∧ Moves p used q ∧ Q v rest q

/-- So many lists and objects are around, whatever the value is. -/
def Outside (d : Nat) (_ : α) (_ : Bytes) (q : Place) : Prop := q = .outside d

/-- The action takes from every text a part that opens and closes nothing but its own parts. -/
def Balanced (act : Reader α) : Prop := ∀ d bs, Crosses (.outside d) act (Outside d) bs

/-! ## The next mark -/

namespace Reader

/-- White space is passed over, and what comes next is looked at. -/
theorem of_peek {bs rest : Bytes} {o : Option Char} (h : Yields peek bs o rest) :
    ∃ space, AllSpace space ∧ bs = space ++ rest ∧ o = rest.head?.map Char.ofUInt8 := by
  cases h
  refine ⟨bs.takeWhile isSpace, fun b hb => List.mem_takeWhile_imp hb, ?_, rfl⟩
  exact List.takeWhile_append_dropWhile.symm

theorem of_start {bs rest : Bytes} {c : Char} (h : Yields start bs c rest) :
    ∃ space b tl, AllSpace space ∧ bs = space ++ rest ∧ rest = b :: tl ∧ c = Char.ofUInt8 b := by
  obtain ⟨o, mid, ho, h⟩ := h.of_bind
  obtain ⟨space, hs, parts, rfl⟩ := of_peek ho
  cases mid with
  | nil => exact absurd h Yields.not_throw
  | cons b tl =>
    obtain ⟨rfl, rfl⟩ := h.of_pure
    exact ⟨space, b, tl, hs, parts, rfl, rfl⟩

/-- The end of a list is white space and its bracket. -/
theorem of_closeList {bs rest : Bytes} {v : Unit} (h : Yields closeList bs v rest) :
    ∃ space, AllSpace space ∧ bs = space ++ byteOf ']' :: rest := by
  obtain ⟨o, mid, ho, h⟩ := h.of_bind
  obtain ⟨space, hs, rfl, rfl⟩ := of_peek ho
  refine ⟨space, hs, ?_⟩
  cases mid with
  | nil => exact absurd h Yields.not_throw
  | cons b tl =>
    dsimp only [List.head?_cons, Option.map_some] at h
    split at h
    · exact absurd h Yields.not_throw
    · rename_i hb
      cases h
      rw [eq_byteOf (Option.some.inj hb)]
      rfl
    · obtain ⟨_, _, _, h⟩ := h.of_bind
      obtain ⟨o, _, _, h⟩ := h.of_bind
      split at h <;> exact absurd h Yields.not_throw
    · exact absurd h Yields.not_throw

end Reader

/-! ## Sequences -/

namespace Crosses

variable {act act' : Reader α} {f : α → Reader β} {p r : Place} {Q : α → Bytes → Place → Prop}
  {R : β → Bytes → Place → Prop} {bs : Bytes} {d : Nat}

theorem bind (h : Crosses p act Q bs)
    (h' : ∀ v rest q, Q v rest q → Crosses q (f v) R rest) : Crosses p (act >>= f) R bs := by
  intro w rest hw
  obtain ⟨v, mid, hv, next⟩ := hw.of_bind
  obtain ⟨used, q, rfl, moves, hq⟩ := h v mid hv
  obtain ⟨used', q', rfl, moves', hq'⟩ := h' v mid q hq w rest next
  exact ⟨used ++ used', q', (List.append_assoc _ _ _).symm, moves.append moves', hq'⟩

theorem pure {v : α} (h : Q v bs p) : Crosses p (pure v) Q bs := by
  intro w rest hw
  obtain ⟨rfl, rfl⟩ := hw.of_pure
  exact ⟨[], p, rfl, .nil _, h⟩

/-- An action that fails takes nothing. -/
theorem never (h : Ensures act fun _ => False) : Crosses p act Q bs :=
  fun v rest hv => (h bs v rest hv).elim

theorem throw (e : Fault) : Crosses p (throw e : Reader α) Q bs := never (.throw e)

theorem lift {e : Except Fault α} (h : ∀ v, e = .ok v → Q v bs p) :
    Crosses p (liftM e : Reader α) Q bs := by
  intro v rest hv
  obtain ⟨e, rfl⟩ := hv.of_lift
  exact ⟨[], p, rfl, .nil _, h v e⟩

/-- A value is computed without the text. -/
theorem given {e : Except Fault α} (h : ∀ v, e = .ok v → Crosses p (f v) R bs) :
    Crosses p (liftM e >>= f) R bs := by
  refine .bind (Q := fun v rest q => e = .ok v ∧ rest = bs ∧ q = p)
    (lift fun v hv => ⟨hv, rfl, rfl⟩) fun v _ _ hq => ?_
  obtain ⟨hv, rfl, rfl⟩ := hq
  exact h v hv

theorem ite {c : Prop} [Decidable c] (h : c → Crosses p act Q bs)
    (h' : ¬c → Crosses p act' Q bs) : Crosses p (if c then act else act') Q bs := by
  split
  · exact h ‹_›
  · exact h' ‹_›

/-- The text is looked at. -/
theorem get {f : Bytes → Reader β} (h : Crosses p (f bs) R bs) :
    Crosses p (MonadState.get >>= f) R bs := by
  intro w rest hw
  obtain ⟨v, mid, hv, next⟩ := hw.of_bind
  cases hv
  exact h w rest next

/-- A part is taken from the text. -/
theorem set {f : PUnit → Reader β} {used rest : Bytes} (h : Moves p used r)
    (h' : Crosses r (f ⟨⟩) R rest) : Crosses p (MonadState.set rest >>= f) R (used ++ rest) := by
  intro w rest' hw
  obtain ⟨v, mid, hv, next⟩ := hw.of_bind
  cases hv
  obtain ⟨used', q, rfl, moves, hq⟩ := h' w rest' next
  exact ⟨used ++ used', q, (List.append_assoc _ _ _).symm, h.append moves, hq⟩

/-- The next byte is taken. -/
theorem advance {f : Unit → Reader β} {b : UInt8} {tl : Bytes} (h : Moves p [b] r)
    (h' : Crosses r (f ⟨⟩) R tl) : Crosses p (Reader.advance >>= f) R (b :: tl) :=
  set h h'

theorem peek {f : Option Char → Reader β} (none : Crosses (.outside d) (f none) R [])
    (some : ∀ b tl, Crosses (.outside d) (f (some (Char.ofUInt8 b))) R (b :: tl)) :
    Crosses (.outside d) (Reader.peek >>= f) R bs := by
  refine .bind (Q := fun o rest q => q = .outside d ∧ o = rest.head?.map Char.ofUInt8)
    (fun o rest ho => ?_) fun _ rest _ hq => ?_
  · obtain ⟨space, hs, rfl, rfl⟩ := Reader.of_peek ho
    exact ⟨space, _, rfl, .neutrals fun b hb => isNeutral_of_isSpace (hs b hb), rfl, rfl⟩
  · obtain ⟨rfl, rfl⟩ := hq
    cases rest with
    | nil => exact none
    | cons b tl => exact some b tl

theorem start {f : Char → Reader β}
    (h : ∀ b tl, Crosses (.outside d) (f (Char.ofUInt8 b)) R (b :: tl)) :
    Crosses (.outside d) (Reader.start >>= f) R bs := by
  refine .bind (Q := fun c rest q => q = .outside d ∧ ∃ b tl, c = Char.ofUInt8 b ∧ rest = b :: tl)
    (peek (throw _) fun b tl => pure ⟨rfl, b, tl, rfl, rfl⟩) fun _ _ _ hq => ?_
  obtain ⟨rfl, b, tl, rfl, rfl⟩ := hq
  exact h b tl

end Crosses

namespace Balanced

variable {act act' : Reader α} {f : α → Reader β}

theorem bind (h : Balanced act) (h' : ∀ v, Balanced (f v)) : Balanced (act >>= f) :=
  fun d bs => (h d bs).bind fun v rest _ hq => hq ▸ h' v d rest

theorem pure (v : α) : Balanced (pure v : Reader α) := fun _ _ => .pure rfl

theorem throw (e : Fault) : Balanced (throw e : Reader α) := fun _ _ => .throw e

theorem lift {e : Except Fault α} : Balanced (liftM e : Reader α) := fun _ _ => .lift fun _ _ => rfl

theorem ite {c : Prop} [Decidable c] (h : c → Balanced act) (h' : ¬c → Balanced act') :
    Balanced (if c then act else act') :=
  fun d bs => .ite (fun hc => h hc d bs) fun hc => h' hc d bs

/-- The value of a reader, changed by a function. -/
theorem map {g : α → β} (h : Balanced act) : Balanced (do return g (← act)) :=
  h.bind fun _ => pure _

end Balanced

namespace Reader

/-! ## Words and numerals -/

theorem letters_balanced {cs : List Char} (h : ∀ c ∈ cs, c ∉ ['"', '[', ']', '\x7b', '}']) :
    Balanced (letters cs) := by
  induction cs with
  | nil => exact .pure _
  | cons c cs ih =>
    refine fun d bs => .get ?_
    cases bs with
    | nil => exact .throw _
    | cons b tl =>
      refine .ite (fun e => ?_) fun _ => .throw _
      have neutral : IsNeutral b := isNeutral_of_eq e (h c List.mem_cons_self)
      have further := ih (fun c' hc => h c' (List.mem_cons_of_mem c hc)) d tl
      exact .set (.neutral neutral : Moves (.outside d) [b] (.outside d)) further

theorem null_balanced : Balanced null := letters_balanced (by simp)

theorem yes_balanced : Balanced yes := letters_balanced (by simp)

theorem no_balanced : Balanced no := letters_balanced (by simp)

theorem digitRun_balanced : Balanced digitRun := by
  refine fun d bs => .get ?_
  have digits : Moves (.outside d) (bs.takeWhile isDigitByte) (.outside d) := by
    refine .neutrals fun b hb => isNeutral_of_isDigit ?_
    exact List.mem_takeWhile_imp (p := isDigitByte) hb
  have taken : Crosses (.outside d) (do
      MonadState.set (bs.dropWhile isDigitByte)
      return (bs.takeWhile isDigitByte).map Char.ofUInt8) (Outside d)
      (bs.takeWhile isDigitByte ++ bs.dropWhile isDigitByte) := .set digits (.pure rfl)
  rwa [List.takeWhile_append_dropWhile] at taken

theorem someDigits_balanced (ended : Fault) : Balanced (someDigits ended) := by
  refine digitRun_balanced.bind fun ds => ?_
  split
  · exact fun d bs => .get (.ite (fun _ => .throw _) fun _ => .throw _)
  · exact .pure _

theorem take?_balanced {c : Char} (h : c ∉ ['"', '[', ']', '\x7b', '}']) : Balanced (take? c) := by
  refine fun d bs => .bind (Q := fun isNext rest q => q = .outside d ∧
    isNext = decide (rest.head?.map Char.ofUInt8 = some c)) (.get (.pure ⟨rfl, rfl⟩))
    fun isNext rest q hq => ?_
  obtain ⟨rfl, rfl⟩ := hq
  refine .ite (fun e => ?_) fun _ => .pure rfl
  cases rest with
  | nil => cases e
  | cons b tl =>
    have neutral : IsNeutral b := isNeutral_of_eq (Option.some.inj (of_decide_eq_true e)) h
    exact .advance (.neutral neutral) (.pure rfl)

theorem wholeDigits_balanced (ended : Fault) : Balanced (wholeDigits ended) := by
  refine (someDigits_balanced ended).bind fun ds => ?_
  exact .ite (fun _ => .bind (.throw _) fun _ => .pure _) fun _ => .pure _

theorem fractionDigits_balanced (ended : Fault) : Balanced (fractionDigits ended) :=
  (take?_balanced (by decide)).bind fun _ =>
    .ite (fun _ => (someDigits_balanced ended).map) fun _ => .pure _

theorem power_balanced (ended : Fault) : Balanced (power ended) := by
  -- one of two characters, or neither
  have either {c : Char} (hc : c ∉ ['"', '[', ']', '\x7b', '}']) (known : Bool)
      {f : Bool → Reader (Option Int)} (h : ∀ b, Balanced (f b)) (isTaken : Bool) :
      Balanced (if isTaken = true then pure known >>= f else take? c >>= f) :=
    .ite (fun _ => (Balanced.pure known).bind h) fun _ => (take?_balanced hc).bind h
  refine (take?_balanced (by decide)).bind (either (by decide) true fun isGiven => ?_)
  refine .ite (fun _ => ?_) fun _ => .pure _
  refine (take?_balanced (by decide)).bind (either (by decide) false fun isNegative => ?_)
  exact (someDigits_balanced ended).map

theorem numeral_balanced (ended : Fault) : Balanced (numeral ended) :=
  (take?_balanced (by decide)).bind fun _ => (wholeDigits_balanced ended).bind fun _ =>
    (fractionDigits_balanced ended).bind fun _ => (power_balanced ended).map

theorem number_balanced : Balanced number := (numeral_balanced _).bind fun _ => .lift

/-! ## Strings -/

/-- A string is left behind its closing quote. -/
theorem stringBody_crosses (d : Nat) (bs : Bytes) :
    Crosses (.inside d) stringBody (Outside d) bs := by
  refine .get (.given fun v hv => ?_)
  obtain ⟨taken, mid⟩ := v
  obtain ⟨body, hbody, parts⟩ := IsBody.of_stringBytes hv
  rw [parts, List.append_cons]
  refine .set ((hbody.moves d).append (.closeQuote (by decide))) ?_
  split
  · exact .pure rfl
  · exact .throw _

theorem skipString_crosses (d : Nat) (bs : Bytes) :
    Crosses (.inside d) skipString (Outside d) bs := by
  refine .get (.given fun mid hmid => ?_)
  obtain ⟨body, hbody, parts⟩ := IsBody.of_skipStringBytes hmid
  rw [parts, List.append_cons]
  exact .set (f := Pure.pure) ((hbody.moves d).append (.closeQuote (by decide))) (.pure rfl)

/-! ## Marks -/

theorem colon_balanced : Balanced colon := by
  refine fun d bs => .peek (.throw _) fun b tl => ?_
  split
  · rename_i e
    exact .advance (f := Pure.pure) (.neutral (isNeutral_of_eq (Option.some.inj e) (by decide)))
      (.pure rfl)
  · exact .throw _
  · exact .throw _

/-- Where no further item follows, the closing bracket is next. -/
theorem moreItems_crosses (isFirst : Bool) (d : Nat) (bs : Bytes) :
    Crosses (.outside d) (moreItems isFirst) (fun more rest q => q = .outside d ∧
      (more = false → ∃ tl, rest = byteOf ']' :: tl)) bs := by
  refine .peek (.throw _) fun b tl => ?_
  split
  · exact .throw _
  · rename_i e
    exact .pure ⟨rfl, fun _ => ⟨tl, by rw [eq_byteOf (Option.some.inj e)]⟩⟩
  · rename_i c _ e
    refine .ite (fun _ => .pure ⟨rfl, nofun⟩) fun _ => .ite (fun hc => ?_) fun _ => .throw _
    subst hc
    refine .advance (.neutral (isNeutral_of_eq (Option.some.inj e) (by decide))) ?_
    refine .peek (.throw _) fun b tl => ?_
    split
    · exact .throw _
    · exact .throw _
    · exact .pure ⟨rfl, nofun⟩

/-- The next member begins with a quote, and where none follows, the closing brace is next. -/
theorem moreMembers_crosses (isFirst : Bool) (d : Nat) (bs : Bytes) :
    Crosses (.outside d) (moreMembers isFirst) (fun more rest q => q = .outside d ∧
      ∃ tl, rest = byteOf (if more then '"' else '}') :: tl) bs := by
  have next {b : UInt8} {c : Char} (e : some (Char.ofUInt8 b) = some c) (tl : Bytes) :
      ∃ tl', b :: tl = byteOf c :: tl' := ⟨tl, by rw [eq_byteOf (Option.some.inj e)]⟩
  refine .peek (.throw _) fun b tl => ?_
  split
  · exact .throw _
  · rename_i e
    exact .pure ⟨rfl, next e tl⟩
  · rename_i c _ e
    refine .ite (fun _ => .ite (fun hc => ?_) fun _ => .throw _) fun _ =>
      .ite (fun hc => ?_) fun _ => .throw _
    · subst hc
      exact .pure ⟨rfl, next e tl⟩
    · subst hc
      refine .advance (.neutral (isNeutral_of_eq (Option.some.inj e) (by decide))) ?_
      refine .peek (.throw _) fun b tl => ?_
      split
      · exact .throw _
      · rename_i e
        exact .pure ⟨rfl, next e tl⟩
      · exact .throw _
      · exact .throw _

/-! ## Lists and objects -/

theorem items_go_crosses {item : Reader α} (h : Balanced item) (n : Nat) (isFirst : Bool)
    (taken : List α) (d : Nat) (bs : Bytes) :
    Crosses (.outside (d + 1)) (items.go item n isFirst taken) (Outside d) bs := by
  induction n generalizing isFirst taken bs with
  | zero => exact .throw _
  | succ n ih =>
    refine .bind (moreItems_crosses isFirst (d + 1) bs) fun more rest q hq => ?_
    obtain ⟨rfl, last⟩ := hq
    refine .ite (fun _ => ?_) fun hmore => ?_
    · refine .bind (h (d + 1) rest) fun v rest q hq => ?_
      cases hq
      exact ih false (v :: taken) rest
    · obtain ⟨tl, rfl⟩ := last (Bool.eq_false_iff.2 hmore)
      exact .advance (.closing (by decide)) (.pure rfl)

theorem list_balanced {item : Reader α} (h : Balanced item) : Balanced (Reader.list item) := by
  refine fun d bs => .start fun b tl => .ite (fun hb => ?_) fun _ => .never (refuse_ensures _ _ _)
  refine .advance (.opening ?_) (.get (items_go_crosses h _ _ _ d tl))
  rw [hb]
  decide

theorem memberName_crosses (isFirst : Bool) (d : Nat) (bs : Bytes) :
    Crosses (.outside d) (memberName isFirst) (fun name rest q => q = .outside d ∧
      (name = none → ∃ tl, rest = byteOf '}' :: tl)) bs := by
  refine .bind (moreMembers_crosses isFirst d bs) fun more rest q hq => ?_
  obtain ⟨rfl, tl, rfl⟩ := hq
  refine .ite (fun hmore => ?_) fun hmore => .pure ⟨rfl, fun _ => ⟨tl, by rw [if_neg hmore]⟩⟩
  subst hmore
  refine .advance (.openQuote (by decide)) (.bind (stringBody_crosses d tl) fun v rest q hq => ?_)
  exact .pure ⟨hq, nofun⟩

/-- The members of an object end before its closing brace. -/
theorem members_crosses {member : σ → String → Reader σ} (h : ∀ s name, Balanced (member s name))
    (start : σ) (d : Nat) (bs : Bytes) :
    Crosses (.outside d) (members member start) (fun _ rest q => q = .outside d ∧
      ∃ tl, rest = byteOf '}' :: tl) bs := by
  have go (n : Nat) (isFirst : Bool) (s : σ) (bs : Bytes) :
      Crosses (.outside d) (members.go member n isFirst s) (fun _ rest q => q = .outside d ∧
        ∃ tl, rest = byteOf '}' :: tl) bs := by
    induction n generalizing isFirst s bs with
    | zero => exact .throw _
    | succ n ih =>
      refine .bind (memberName_crosses isFirst d bs) fun name rest q hq => ?_
      obtain ⟨rfl, last⟩ := hq
      cases name with
      | none => exact .pure ⟨rfl, last rfl⟩
      | some name =>
        refine .bind (h s name d rest) fun s' rest q hq => ?_
        cases hq
        exact ih false s' rest
  exact .get (go _ _ _ bs)

/-! ## Values of one kind -/

theorem optional_balanced {r : Reader α} (h : Balanced r) : Balanced (Reader.optional r) := by
  refine fun d bs => .peek ?_ fun b tl => ?_
  · exact .ite nofun fun _ => h.map d []
  · exact .ite (fun _ => (null_balanced.bind fun _ => .pure _) d _) fun _ => h.map d _

theorem boolean_balanced : Balanced Reader.boolean := by
  refine fun d bs => .start fun b tl => ?_
  refine .ite (fun _ => (yes_balanced.bind fun _ => .pure _) d _) fun _ => ?_
  exact .ite (fun _ => (no_balanced.bind fun _ => .pure _) d _)
    fun _ => .never (refuse_ensures _ _ _)

theorem textOf_balanced (expected : String) : Balanced (textOf expected) := by
  refine fun d bs => .start fun b tl => .ite (fun hb => ?_) fun _ => .never (refuse_ensures _ _ _)
  exact .advance (.openQuote hb) (stringBody_crosses d tl)

theorem text_balanced : Balanced Reader.text := textOf_balanced _

theorem parsed_balanced {expected : String} {parse : String → Except String α} :
    Balanced (parsed expected parse) := by
  refine (textOf_balanced expected).bind fun s => ?_
  split
  · exact .pure _
  · exact .throw _

theorem numberOf_balanced (expected : String) : Balanced (numberOf expected) := by
  refine fun d bs => .start fun b tl => ?_
  exact .ite (fun _ => number_balanced d _) fun _ => .never (refuse_ensures _ _ _)

theorem int64_balanced : Balanced Reader.int64 := by
  refine Balanced.map ((numberOf_balanced _).bind fun m => ?_)
  cases m with
  | integer n => exact .ite (fun _ => .pure _) fun _ => .throw _
  | floating x => exact .throw _

theorem floating_balanced : Balanced Reader.floating := by
  refine (numberOf_balanced _).bind fun m => ?_
  cases m with
  | floating x => exact .pure _
  | integer n =>
    dsimp only
    split
    · exact .pure _
    · exact .throw _

/-! ## Skipped values -/

theorem skipName_balanced : Balanced skipName := by
  refine fun d bs => .peek (.throw _) fun b tl => ?_
  split
  · rename_i hb
    refine .advance (.openQuote (Option.some.inj hb)) (.bind (skipString_crosses d tl) ?_)
    intro _ rest q hq
    cases hq
    exact colon_balanced d rest
  · exact .throw _
  · exact .throw _

theorem skipScalar_crosses (d : Nat) (b : UInt8) (tl : Bytes) :
    Crosses (.outside d) (skipScalar (Char.ofUInt8 b)) (Outside d) (b :: tl) := by
  refine .ite (fun _ => null_balanced d _) fun _ => ?_
  refine .ite (fun _ => yes_balanced d _) fun _ => ?_
  refine .ite (fun _ => no_balanced d _) fun _ => ?_
  refine .ite (fun hb => .advance (.openQuote hb) (skipString_crosses d tl)) fun _ => ?_
  exact .ite (fun _ => ((numeral_balanced _).bind fun _ => .pure _) d _) fun _ => .throw _

/-- As many lists and objects are around as skipping keeps in mind. -/
def Within (d : Nat) (v : Skipping × List Enclosure) (_ : Bytes) (q : Place) : Prop :=
  q = .outside (d + v.2.length)

theorem enter_crosses (e : Enclosure) (around : List Enclosure) (d : Nat) (bs : Bytes) :
    Crosses (.outside (d + around.length + 1)) (enter e around) (Within d) bs := by
  refine .peek (.throw _) fun b tl => .ite (fun hb => ?_) fun _ => ?_
  · refine .advance (.closing ?_) (.pure rfl)
    rw [hb]
    cases e <;> decide
  · cases e with
    | list => exact .pure rfl
    | object =>
      exact .bind (skipName_balanced _ _) fun _ _ _ hq => .pure hq

theorem skipPart_crosses (s : Skipping) (around : List Enclosure) (d : Nat) (bs : Bytes) :
    Crosses (.outside (d + around.length)) (skipPart s around) (Within d) bs := by
  cases s with
  | rest =>
    cases around with
    | nil => exact .pure rfl
    | cons e outer =>
      refine .peek (.throw _) fun b tl => .ite (fun hb => ?_) fun _ => .ite (fun hb => ?_)
        fun _ => .throw _
      · refine .advance (.neutral (isNeutral_of_eq hb (by decide))) ?_
        cases e with
        | list => exact .pure rfl
        | object => exact .bind (skipName_balanced _ _) fun _ _ _ hq => .pure hq
      · refine .advance (.closing ?_) (.pure rfl)
        rw [hb]
        cases e <;> decide
  | value =>
    refine .peek (.throw _) fun b tl => ?_
    split
    · exact .throw _
    · rename_i hb
      refine .advance (.opening ?_) (enter_crosses .list around d tl)
      rw [Option.some.inj hb]
      decide
    · rename_i hb
      refine .advance (.opening ?_) (enter_crosses .object around d tl)
      rw [Option.some.inj hb]
      decide
    · rename_i hb
      cases hb
      exact .bind (skipScalar_crosses _ b tl) fun _ _ _ hq => .pure hq

theorem skipParts_crosses (n : Nat) (s : Skipping) (around : List Enclosure) (d : Nat)
    (bs : Bytes) :
    Crosses (.outside (d + around.length)) (skipParts n s around) (Outside d) bs := by
  induction n generalizing s around bs with
  | zero =>
    cases s with
    | value => exact .throw _
    | rest =>
      cases around with
      | nil => exact .pure rfl
      | cons e outer => exact .throw _
  | succ n ih =>
    have further : Crosses (.outside (d + around.length))
        (skipPart s around >>= fun next => skipParts n next.1 next.2) (Outside d) bs := by
      refine .bind (skipPart_crosses s around d bs) fun v rest q hq => ?_
      cases hq
      exact ih v.1 v.2 rest
    cases s with
    | value => exact further
    | rest =>
      cases around with
      | nil => exact .pure rfl
      | cons e outer => exact further

theorem skipValue_balanced : Balanced skipValue :=
  fun d bs => .get (skipParts_crosses _ .value [] d bs)

end Reader

/-! ## Records -/

section Records

variable {r : Record σ α}

theorem Record.readMember_balanced (h : ∀ m ∈ r.members, ∀ d, Balanced (m.read d)) (d : σ)
    (name : String) : Balanced (r.readMember d name) := by
  unfold Record.readMember
  split
  · rename_i m hm
    have read : Balanced (m.read d) := h m (List.mem_of_find?_eq_some hm) d
    exact .ite (fun _ => .bind (.throw _) fun _ => Reader.colon_balanced.bind fun _ => read)
      fun _ => Reader.colon_balanced.bind fun _ => read
  · exact Reader.colon_balanced.bind fun _ => Reader.skipValue_balanced.bind fun _ => .pure _

theorem Record.readItems_balanced (place : Nat) (ms : List (Member σ))
    (h : ∀ m ∈ ms, ∀ d, Balanced (m.read d)) (draft : σ) :
    Balanced (r.readItems place ms draft) := by
  induction ms generalizing place draft with
  | nil => exact .pure _
  | cons m ms ih =>
    have further (draft : σ) : Balanced (r.readItems (place + 1) ms draft) :=
      ih (place + 1) (fun m' hm' => h m' (List.mem_cons_of_mem m hm')) draft
    refine fun d bs => .bind (Reader.moreItems_crosses _ d bs) fun more rest q hq => ?_
    obtain ⟨rfl, -⟩ := hq
    refine .ite (fun _ => ?_) fun _ => .ite (fun _ => .throw _) fun _ => further draft d rest
    exact ((h m List.mem_cons_self draft).bind further) d rest

/-- **A record that is read is white space and a whole text.** -/
theorem Record.isWhole_of_yields (h : ∀ m ∈ r.members, ∀ d, Balanced (m.read d)) {bs rest : Bytes}
    {v : α} (hv : Yields r.reader bs v rest) :
    ∃ space used, bs = space ++ (used ++ rest) ∧ AllSpace space ∧ IsWhole used := by
  obtain ⟨c, mid, hc, hv⟩ := hv.of_bind
  obtain ⟨space, b, tl, hs, rfl, rfl, rfl⟩ := Reader.of_start hc
  refine ⟨space, ?_⟩
  split at hv
  · rename_i hb
    obtain ⟨_, _, hadvance, hv⟩ := hv.of_bind
    cases hadvance
    obtain ⟨draft, mid, hdraft, hv⟩ := hv.of_bind
    obtain ⟨inner, q, parts, moves, rfl⟩ := readItems_balanced 0 r.members h r.blank 0 _ _ _ hdraft
    obtain ⟨v', _, hbuild, hv⟩ := hv.of_bind
    obtain ⟨-, rfl⟩ := hbuild.of_lift
    obtain ⟨_, mid', hclose, hend⟩ := hv.of_bind
    obtain ⟨gap, hgap, rfl⟩ := Reader.of_closeList hclose
    obtain ⟨-, rfl⟩ := hend.of_pure
    have behind : Moves (.outside 0) gap (.outside 0) :=
      .neutrals fun b hb => isNeutral_of_isSpace (hgap b hb)
    refine ⟨b :: (inner ++ gap ++ [byteOf ']']), ?_, hs, b, inner ++ gap, byteOf ']', rfl, ?_,
      moves.append behind, by decide⟩
    · have parts : tl = inner ++ (gap ++ byteOf ']' :: mid') := parts
      rw [parts]
      simp
    · rw [hb]
      decide
  · split at hv
    · rename_i hb
      obtain ⟨_, _, hadvance, hv⟩ := hv.of_bind
      cases hadvance
      obtain ⟨draft, mid, hdraft, hv⟩ := hv.of_bind
      obtain ⟨inner, q, parts, moves, rfl, mid', rfl⟩ :=
        Reader.members_crosses (readMember_balanced h) r.blank 0 _ _ _ hdraft
      obtain ⟨v', _, hbuild, hv⟩ := hv.of_bind
      obtain ⟨-, rfl⟩ := hbuild.of_lift
      obtain ⟨_, _, hadvance, hv⟩ := hv.of_bind
      cases hadvance
      obtain ⟨-, rfl⟩ := hv.of_pure
      refine ⟨b :: (inner ++ [byteOf '}']), ?_, hs, b, inner, byteOf '}', rfl, ?_, moves,
        by decide⟩
      · have parts : tl = inner ++ byteOf '}' :: mid' := parts
        rw [parts]
        simp
      · rw [hb]
        decide
    · exact (Reader.refuse_ensures _ _ (fun _ => False) _ _ _ hv).elim

theorem Record.balanced (h : ∀ m ∈ r.members, ∀ d, Balanced (m.read d)) : Balanced r.reader := by
  intro d bs v rest hv
  obtain ⟨space, used, rfl, hs, first, inner, last, rfl, opens, moves, closes⟩ :=
    isWhole_of_yields h hv
  have within : Moves (.outside (d + 1)) inner (.outside (d + 1)) := by
    have := moves.raise (d + 1)
    rwa [Place.raise, Nat.zero_add] at this
  refine ⟨space ++ (first :: (inner ++ [last])), _, (List.append_assoc _ _ _).symm, ?_, rfl⟩
  exact (Moves.neutrals fun b hb => isNeutral_of_isSpace (hs b hb)).append
    ((Moves.opening opens).cons (within.append (.closing closes)))

end Records

end MemoTransfer.Json
