import MemoTransfer.Json.Reader.Record
import MemoTransfer.Proofs.Number.Decimal
import MemoTransfer.Proofs.Reading

/-!
# What is known of a value that was read

`Ensures act P` says that `P` holds of every value that the action gives, whatever text it is run
on. For a sequence it is known of the parts in turn (`Ensures.bind`). A reader of a record keeps an
invariant of its drafts: if the blank draft has it and every member keeps it, it holds of the draft
that is built (`Record.ensures`), in whichever form and order the members come.
-/

namespace MemoTransfer

variable {σ ε α β : Type}

/-- Every value that the action gives has the property. -/
def Ensures (act : StateT σ (Except ε) α) (P : α → Prop) : Prop := ∀ s v t, Yields act s v t → P v

namespace Ensures

variable {act : StateT σ (Except ε) α} {f : α → StateT σ (Except ε) β} {P : α → Prop}
  {Q : β → Prop}

theorem bind (h : Ensures act P) (h' : ∀ v, P v → Ensures (f v) Q) : Ensures (act >>= f) Q := by
  intro s w u hw
  obtain ⟨v, t, hv, hw⟩ := hw.of_bind
  exact h' v (h s v t hv) t w u hw

/-- A sequence of which the first part does not matter. -/
theorem after (h : ∀ v, Ensures (f v) Q) : Ensures (act >>= f) Q :=
  bind (P := fun _ => True) (fun _ _ _ _ => trivial) fun v _ => h v

theorem pure {v : α} (h : P v) : Ensures (Pure.pure v : StateT σ (Except ε) α) P := by
  intro s w t hw
  rw [← hw.of_pure.1]
  exact h

theorem throw (e : ε) : Ensures (throw e : StateT σ (Except ε) α) P :=
  fun _ _ _ h => absurd h Yields.not_throw

theorem lift {e : Except ε α} (h : ∀ v, e = .ok v → P v) :
    Ensures (liftM e : StateT σ (Except ε) α) P :=
  fun _ v _ hv => h v hv.of_lift.1

theorem ite {c : Prop} [Decidable c] {act' : StateT σ (Except ε) α} (h : c → Ensures act P)
    (h' : ¬c → Ensures act' P) : Ensures (if c then act else act') P := by
  split
  · exact h ‹_›
  · exact h' ‹_›

end Ensures

namespace Json

open MemoTransfer.Number

/-! ## Readers of one kind of value -/

namespace Reader

/-- Behind the value of a whole text there is nothing but white space. -/
theorem yields_of_run {r : Reader α} {bs : Bytes} {v : α} (h : Reader.run r bs = .ok v) :
    ∃ rest, Yields r bs v rest ∧ (skipSpace rest).isEmpty = true := by
  unfold Reader.run at h
  obtain ⟨⟨w, rest⟩, hw, next⟩ := exists_ok_of_bind h
  dsimp only at next
  split at next
  · rename_i hrest
    cases next
    exact ⟨rest, hw, hrest⟩
  · cases next

/-- What is known of a reader is known of the value of a whole text. -/
theorem run_ensures {r : Reader α} {P : α → Prop} (h : Ensures r P) {bs : Bytes} {v : α}
    (hr : Reader.run r bs = .ok v) : P v := by
  obtain ⟨rest, hv, -⟩ := yields_of_run hr
  exact h bs v rest hv

theorem refuse_ensures (expected : String) (c : Char) (P : α → Prop) :
    Ensures (refuse expected c : Reader α) P := by
  unfold refuse
  refine .ite (fun _ => .after fun _ => .throw _) fun _ => ?_
  refine .ite (fun _ => .after fun _ => .throw _) fun _ => ?_
  refine .ite (fun _ => .after fun _ => .throw _) fun _ => ?_
  refine .ite (fun _ => .after fun _ => .throw _) fun _ => ?_
  refine .ite (fun _ => .after fun _ => .after fun _ => .throw _) fun _ => ?_
  refine .ite (fun _ => .throw _) fun _ => ?_
  exact .ite (fun _ => .throw _) fun _ => .throw _

theorem optional_ensures {r : Reader α} {P : α → Prop} (h : Ensures r P) :
    Ensures (Reader.optional r) fun o => ∀ v ∈ o, P v := by
  refine .after fun c => .ite (fun _ => .after fun _ => .pure fun v hv => by cases hv) fun _ => ?_
  refine h.bind fun v hv => .pure fun w hw => ?_
  cases hw
  exact hv

theorem items_go_ensures {item : Reader α} {P : α → Prop} (h : Ensures item P) (n : Nat)
    (isFirst : Bool) (taken : List α) (ht : ∀ v ∈ taken, P v) :
    Ensures (items.go item n isFirst taken) fun vs => ∀ v ∈ vs, P v := by
  induction n generalizing isFirst taken with
  | zero => exact .throw _
  | succ n ih =>
    refine .after fun more => .ite (fun _ => ?_) fun _ => ?_
    · refine h.bind fun v hv => ih false (v :: taken) fun w hw => ?_
      rcases List.mem_cons.1 hw with rfl | hw
      · exact hv
      · exact ht w hw
    · exact .after fun _ => .pure fun v hv => ht v (List.mem_reverse.1 hv)

theorem list_ensures {item : Reader α} {P : α → Prop} (h : Ensures item P) :
    Ensures (Reader.list item) fun vs => ∀ v ∈ vs, P v := by
  refine .after fun c => .ite (fun _ => .after fun _ => .after fun bs => ?_) fun _ => ?_
  · exact items_go_ensures h _ _ _ fun v hv => absurd hv List.not_mem_nil
  · exact refuse_ensures _ _ _

/-- A number that is read as a floating-point number is finite. -/
theorem floating_ensures : Ensures Reader.floating fun x => x.isFinite = true := by
  have number : Ensures (Reader.numberOf "f64") fun m =>
      ∀ x, m = .floating x → x.isFinite = true := by
    refine .after fun c => .ite (fun _ => .after fun n => .lift fun m hm => ?_) fun _ => ?_
    · rintro x rfl
      unfold Numeral.value at hm
      split at hm
      · cases hm
      · split at hm
        · cases hm
          rename_i h
          exact Binary64.isFinite_of_ofDecimal? h
        · cases hm
    · exact refuse_ensures _ _ _
  refine number.bind fun m hm => ?_
  cases m with
  | floating x => exact .pure (hm x rfl)
  | integer n =>
    dsimp only
    split
    · rename_i h
      exact .pure (Binary64.isFinite_of_ofDecimal? h)
    · exact .throw _

end Reader

/-! ## Records -/

section Records

variable {r : Record σ α} {I : σ → Prop}

theorem Record.readMember_ensures (h : ∀ m ∈ r.members, ∀ d, I d → Ensures (m.read d) I) (d : σ)
    (hd : I d) (name : String) : Ensures (r.readMember d name) I := by
  unfold Record.readMember
  split
  · rename_i m hm
    have read : Ensures (m.read d) I := h m (List.mem_of_find?_eq_some hm) d hd
    exact .ite (fun _ => .bind (P := fun _ => False) (.throw _) fun _ hf => hf.elim)
      fun _ => .after fun _ => read
  · exact .after fun _ => .after fun _ => .pure hd

theorem Reader.members_go_ensures {member : σ → String → Reader σ}
    (h : ∀ d, I d → ∀ name, Ensures (member d name) I) (n : Nat) (isFirst : Bool) (d : σ)
    (hd : I d) : Ensures (members.go member n isFirst d) I := by
  induction n generalizing isFirst d with
  | zero => exact .throw _
  | succ n ih =>
    refine .after fun name => ?_
    cases name with
    | none => exact .pure hd
    | some name => exact (h d hd name).bind fun d' hd' => ih false d' hd'

theorem Record.readItems_ensures (place : Nat) (ms : List (Member σ))
    (h : ∀ m ∈ ms, ∀ d, I d → Ensures (m.read d) I) (d : σ) (hd : I d) :
    Ensures (r.readItems place ms d) I := by
  induction ms generalizing place d with
  | nil => exact .pure hd
  | cons m ms ih =>
    have further : ∀ d, I d → Ensures (r.readItems (place + 1) ms d) I :=
      ih (place + 1) fun m' hm' => h m' (List.mem_cons_of_mem m hm')
    refine .after fun more => .ite (fun _ => ?_) fun _ => .ite (fun _ => .throw _) fun _ => ?_
    · exact (h m List.mem_cons_self d hd).bind further
    · exact further d hd

/-- **What a record is built of keeps the invariant of its drafts.** -/
theorem Record.ensures {P : α → Prop} (blank : I r.blank)
    (member : ∀ m ∈ r.members, ∀ d, I d → Ensures (m.read d) I)
    (build : ∀ d v, I d → r.build d = .ok v → P v) : Ensures r.reader P := by
  refine .after fun c => .ite (fun _ => .after fun _ => ?_) fun _ =>
    .ite (fun _ => .after fun _ => ?_) fun _ => Reader.refuse_ensures _ _ _
  · refine (readItems_ensures 0 r.members member r.blank blank).bind fun d hd => ?_
    exact (Ensures.lift (build d · hd)).bind fun v hv => .after fun _ => .pure hv
  · refine Ensures.bind (P := I) (.after fun bs => ?_) fun d hd => ?_
    · exact Reader.members_go_ensures (fun d hd name => readMember_ensures member d hd name) _ _ _
        blank
    · exact (Ensures.lift (build d · hd)).bind fun v hv => .after fun _ => .pure hv

/-- A member keeps an invariant if putting its value in does. -/
theorem Member.of_ensures {β : Type} {name : String} {reader : Reader β} {get : σ → Option β}
    {put : σ → β → σ} {isRequired : Bool} {P : β → Prop} (h : Ensures reader P) {d : σ}
    (hp : ∀ v, P v → I (put d v)) :
    Ensures ((Member.of name reader get put isRequired).read d) I :=
  h.bind fun v hv => .pure (hp v hv)

/-- A member whose value does not matter to an invariant. -/
theorem Member.of_ensures_any {β : Type} {name : String} {reader : Reader β} {get : σ → Option β}
    {put : σ → β → σ} {isRequired : Bool} {d : σ} (hp : ∀ v, I (put d v)) :
    Ensures ((Member.of name reader get put isRequired).read d) I :=
  .after fun v => .pure (hp v)

end Records

end Json

end MemoTransfer
