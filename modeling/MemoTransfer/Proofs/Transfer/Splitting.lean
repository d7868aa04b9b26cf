import MemoTransfer.Proofs.Transfer.Verdicts

/-!
# Splitting a snapshot

An import carries nothing from one record to the next but the store. So whatever the store is, and
whatever its calls do, a snapshot may be imported in two parts, one after the other
(`importMemos_append`); the response to the whole adds up the responses to the parts
(`ImportReport.response_append`). For the tables of a store this is `Store.importAs_split`.
-/

namespace MemoTransfer

/-! ## The law of parts -/

section

variable {m : Type → Type} [Monad m]

theorem liftM_ok {α : Type} (v : α) :
    (liftM (Except.ok v : Except Error α) : ExceptT Error m α) = pure v := rfl

theorem liftM_error {α : Type} (e : Error) :
    (liftM (Except.error e : Except Error α) : ExceptT Error m α) = throw e := rfl

variable [LawfulMonad m]

theorem throw_bind {α β : Type} (e : Error) (f : α → ExceptT Error m β) :
    (throw e : ExceptT Error m α) >>= f = throw e := by
  apply ExceptT.ext
  rw [ExceptT.run_bind]
  exact pure_bind _ _

variable {whole first second : ImportRequest} {w a b : Snapshot}

/-- **An import is the import of the first records followed by that of the others**, for every store
and every reference importer. -/
theorem importMemos_append (store : MemoStore m) (user : Except Error User)
    (references : ReferenceImporter m) (now : Int) (hw : whole.snapshot = .ok w)
    (ha : first.snapshot = .ok a) (hb : second.snapshot = .ok b)
    (records : w.records = a.records ++ b.records) (same : first.options = whole.options)
    (same' : second.options = whole.options) :
    importMemos store user whole references now = do
      let x ← importMemos store user first references now
      let y ← importMemos store user second references now
      return ⟨x.verdicts ++ y.verdicts, whole.options.validateOnly⟩ := by
  unfold importMemos
  cases user with
  | error e => simp only [liftM_error, throw_bind]
  | ok user =>
    simp only [hw, ha, hb, liftM_ok, pure_bind, records, same, same', List.mapM_append, bind_assoc]

end

/-! ## Responses -/

namespace ImportResponse

/-- The counters of a response. -/
def counters (r : ImportResponse) : List UInt32 :=
  [r.importedCount, r.skippedCount, r.validationErrors, r.totalMemos, r.createdCount,
    r.updatedCount, r.attachmentsImported, r.relationsImported]

/-- The response with another duration. -/
def lasting (r : ImportResponse) (durationMs : UInt64) : ImportResponse :=
  { r with durationMs := durationMs }

/-- Both responses as one: the counters add up, and the texts of the second one come behind those of
the first one. -/
def append (a b : ImportResponse) : ImportResponse where
  importedCount := a.importedCount + b.importedCount
  skippedCount := a.skippedCount + b.skippedCount
  validationErrors := a.validationErrors + b.validationErrors
  errors := a.errors ++ b.errors
  warnings := a.warnings ++ b.warnings
  totalMemos := a.totalMemos + b.totalMemos
  createdCount := a.createdCount + b.createdCount
  updatedCount := a.updatedCount + b.updatedCount
  attachmentsImported := a.attachmentsImported + b.attachmentsImported
  relationsImported := a.relationsImported + b.relationsImported
  durationMs := a.durationMs + b.durationMs

@[simp] theorem counters_lasting (r : ImportResponse) (durationMs : UInt64) :
    (r.lasting durationMs).counters = r.counters := rfl

theorem counters_append (a b : ImportResponse) :
    (a.append b).counters = List.zipWith (· + ·) a.counters b.counters := rfl

end ImportResponse

/-- Sums of numbers that are small enough are not cut off. -/
theorem map_toNat_zipWith_add {n k : Nat} {xs ys : List UInt32} (hx : ∀ x ∈ xs, x.toNat ≤ n)
    (hy : ∀ y ∈ ys, y.toNat ≤ k) (few : n + k < 2 ^ 32) :
    (List.zipWith (· + ·) xs ys).map UInt32.toNat =
      List.zipWith (· + ·) (xs.map UInt32.toNat) (ys.map UInt32.toNat) := by
  induction xs generalizing ys with
  | nil => rfl
  | cons x xs ih =>
    cases ys with
    | nil => rfl
    | cons y ys =>
      rw [List.forall_mem_cons] at hx hy
      have whole : (x + y).toNat = x.toNat + y.toNat := by
        rw [UInt32.toNat_add, Nat.mod_eq_of_lt (by omega)]
      simp only [List.zipWith_cons_cons, List.map_cons, whole, ih hx.2 hy.2]

/-- The record was rejected, or accepted without any references. -/
def Verdict.IsBare (v : Verdict) : Prop :=
  ∀ x ∈ v.toOption, x.1.attachments = 0 ∧ x.1.relations = 0

namespace ImportReport

/-- **The response to two reports together** adds up those to each of them, but for the time. -/
theorem response_append {a b : ImportReport} (same : b.validateOnly = a.validateOnly)
    (elapsed first second : Nat) :
    ((⟨a.verdicts ++ b.verdicts, a.validateOnly⟩ : ImportReport).response elapsed) =
      ((a.response first).append (b.response second)).lasting (Summary.milliseconds elapsed) := by
  simp only [response_eq, rejections_eq, same, ImportResponse.append, ImportResponse.lasting,
    List.length_append, List.filterMap_append, List.countP_append, List.map_append,
    List.sum_append, List.flatMap_append, UInt32.ofNat_add]
  cases a.validateOnly <;> simp

/-- No counter exceeds the number of records. -/
theorem counters_le {report : ImportReport} (bare : ∀ v ∈ report.verdicts, v.IsBare)
    (elapsed : Nat) : ∀ c ∈ (report.response elapsed).counters,
      c.toNat ≤ report.verdicts.length := by
  have counted {n : Nat} (h : n ≤ report.verdicts.length) :
      (UInt32.ofNat n).toNat ≤ report.verdicts.length := by
    rw [UInt32.toNat_ofNat']
    exact (Nat.mod_le n _).trans h
  have divided := report.length_accepted_add_length_rejections
  have noneOf (f : Imported → UInt32)
      (h : ∀ x ∈ report.verdicts.filterMap Except.toOption, f x.1 = 0) :
      ((report.verdicts.filterMap Except.toOption).map fun x => (f x.1).toNat).sum = 0 := by
    rw [List.sum_eq_zero_iff_forall_eq_nat, List.forall_mem_map]
    intro x hx
    rw [h x hx]
    rfl
  have accepted : ∀ x ∈ report.verdicts.filterMap Except.toOption,
      x.1.attachments = 0 ∧ x.1.relations = 0 := by
    intro x hx
    obtain ⟨v, hv, e⟩ := List.mem_filterMap.1 hx
    exact bare v hv x e
  have response := report.response_eq elapsed
  dsimp only at response
  rw [response, noneOf _ fun x hx => (accepted x hx).1, noneOf _ fun x hx => (accepted x hx).2]
  simp only [ImportResponse.counters, List.forall_mem_cons]
  refine ⟨counted (by omega), counted (by omega), ?_, counted (Nat.le_refl _),
    counted List.countP_le_length, counted List.countP_le_length, counted (Nat.zero_le _),
    counted (Nat.zero_le _), by simp⟩
  cases report.validateOnly with
  | true => exact counted (by omega)
  | false => exact Nat.zero_le _

/-- The counters of both reports together are the sums of those of each, if there are so few records
that they can be counted. -/
theorem counters_append {a b : ImportReport} (same : b.validateOnly = a.validateOnly)
    (bare : ∀ v ∈ a.verdicts, v.IsBare) (bare' : ∀ v ∈ b.verdicts, v.IsBare)
    (few : a.verdicts.length + b.verdicts.length < 2 ^ 32) (elapsed first second : Nat) :
    (((⟨a.verdicts ++ b.verdicts, a.validateOnly⟩ : ImportReport).response elapsed).counters.map
        UInt32.toNat) =
      List.zipWith (· + ·) ((a.response first).counters.map UInt32.toNat)
        ((b.response second).counters.map UInt32.toNat) := by
  rw [response_append same elapsed first second, ImportResponse.counters_lasting,
    ImportResponse.counters_append]
  exact map_toNat_zipWith_add (counters_le bare first) (counters_le bare' second) few

end ImportReport

namespace Store

variable {s : Store} {owner : UserId} {options : ImportOptions} {now : Int}

/-- An import brings no references in. -/
theorem isBare_verdicts (s : Store) (owner : UserId) (options : ImportOptions) (now : Int)
    (records : List MemoRecord) : ∀ v ∈ s.verdicts owner options now records, v.IsBare := by
  induction records generalizing s with
  | nil => exact fun v hv => absurd hv List.not_mem_nil
  | cons r records ih =>
    refine List.forall_mem_cons.2 ⟨?_, ih _⟩
    have step := s.reconciled owner options now r
    generalize s.verdict owner options r = v, s.merged owner options now r = t at step ⊢
    cases step <;> simp [Verdict.IsBare, Except.toOption]

variable {username : String} {user : User} {whole first second : ImportRequest} {w a b : Snapshot}

/-- The import of all records, put together from those of two parts. -/
theorem importAs_append {t u : Store} {x y : ImportReport}
    (user : t.session username = s.session username) (hw : whole.snapshot = .ok w)
    (ha : first.snapshot = .ok a) (hb : second.snapshot = .ok b)
    (records : w.records = a.records ++ b.records) (same : first.options = whole.options)
    (same' : second.options = whole.options)
    (former : s.importAs username first now = (.ok x, t))
    (latter : t.importAs username second now = (.ok y, u)) :
    s.importAs username whole now =
      (.ok ⟨x.verdicts ++ y.verdicts, whole.options.validateOnly⟩, u) := by
  have next : Ends (importMemos memoStore (s.session username) second .deferred now) t
      (.ok y) u := by
    rw [← user]
    exact latter
  rw [importAs, importMemos_append memoStore (s.session username) .deferred now hw ha hb records
    same same']
  exact Ends.bind former (next.bind (.pure _ _))

/-- **A snapshot may be imported in two parts.** All records at once lead to the store to which the
first ones and then the others lead, and the response to them adds up the responses to the parts,
but for the time; if the records can be counted, no counter is cut off. -/
theorem importAs_split (hs : s.WellFormed) (hu : s.user? username = some user)
    (hw : whole.snapshot = .ok w) (ha : first.snapshot = .ok a) (hb : second.snapshot = .ok b)
    (records : w.records = a.records ++ b.records) (same : first.options = whole.options)
    (same' : second.options = whole.options) (now : Int) :
    ∃ report x y t u, s.importAs username whole now = (.ok report, u) ∧
      s.importAs username first now = (.ok x, t) ∧ t.importAs username second now = (.ok y, u) ∧
      ∀ elapsed e e', report.response elapsed =
          ((x.response e).append (y.response e')).lasting (Summary.milliseconds elapsed) ∧
        (w.records.length < 2 ^ 32 → (report.response elapsed).counters.map UInt32.toNat =
          List.zipWith (· + ·) ((x.response e).counters.map UInt32.toNat)
            ((y.response e').counters.map UInt32.toNat)) := by
  have users := users_mergedAll s user.id first.options now a.records
  have hu' : (s.mergedAll user.id first.options now a.records).user? username = some user := by
    rw [user?, users]
    exact hu
  have former := importAs_eq hs hu ha now
  have latter := importAs_eq (hs.mergedAll user.id first.options now a.records) hu' hb now
  have both := importAs_append ((session_eq hu').trans (session_eq hu).symm) hw ha hb records same
    same' former latter
  have mode : second.options.validateOnly = first.options.validateOnly := by rw [same, same']
  rw [← same] at both
  refine ⟨_, _, _, _, _, both, former, latter, fun elapsed e e' =>
    ⟨ImportReport.response_append mode elapsed e e', fun few => ?_⟩⟩
  have bare := s.isBare_verdicts user.id first.options now a.records
  refine ImportReport.counters_append mode bare (isBare_verdicts _ _ _ _ _) ?_ elapsed e e'
  rw [length_verdicts, length_verdicts, ← List.length_append, ← records]
  exact few

/-- The request to import some records. -/
def bringing (records : List MemoRecord) : ImportRequest :=
  ⟨(Snapshot.ofRecords .epoch records).encode, "", {}⟩

theorem snapshot_bringing {records : List MemoRecord} (h : ∀ r ∈ records, r.IsFinite) :
    (bringing records).snapshot = .ok (.ofRecords .epoch records) := by
  have finite : (Snapshot.ofRecords .epoch records).IsFinite := h
  exact ImportRequest.snapshot_encode finite "" _

/-- The memo of the first part makes the import of the second part fail, as it does in the whole. -/
theorem importAs_split_repeating : ∃ report x y t u,
    lone.importAs "alice" (bringing repeating.records) 60 = (.ok report, u) ∧
      lone.importAs "alice" (bringing (repeating.records.take 1)) 60 = (.ok x, t) ∧
      t.importAs "alice" (bringing (repeating.records.drop 1)) 60 = (.ok y, u) ∧
      (report.response 0).counters.map UInt32.toNat =
        List.zipWith (· + ·) ((x.response 0).counters.map UInt32.toNat)
          ((y.response 0).counters.map UInt32.toNat) := by
  have keys : lone.WellFormed := WellFormed.empty.of_memos rfl rfl
  have known : lone.user? "alice" = some ⟨1, "alice"⟩ := rfl
  have finite : ∀ r ∈ repeating.records, r.IsFinite := by decide
  have all := snapshot_bringing finite
  have former := snapshot_bringing fun r hr => finite r (List.mem_of_mem_take (i := 1) hr)
  have latter := snapshot_bringing fun r hr => finite r (List.mem_of_mem_drop (i := 1) hr)
  have parted : repeating.records = repeating.records.take 1 ++ repeating.records.drop 1 :=
    (List.take_append_drop 1 _).symm
  obtain ⟨report, x, y, t, u, whole, first, second, sums⟩ :=
    importAs_split keys known all former latter parted rfl rfl 60
  exact ⟨report, x, y, t, u, whole, first, second, (sums 0 0 0).2 (by decide)⟩

end Store

end MemoTransfer
