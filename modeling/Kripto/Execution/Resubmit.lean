/-
# Submitting an intent id again

What identifies an order in the ledger is account, symbol, side, order type and quantity.  The
row holds them as normalization left them: the type upper-cased, the quantity rounded to the
step and stored in a numeric column.  A later call compares its own, raw values with the row --
and only if its cache has nothing for the id.

* **Restart**: the identical intent is answered from the ledger exactly when normalization did
  not change its type or quantity; otherwise it raises a collision with itself.
* **Reuse**: a different intent under the same id is refused exactly when the id is not in the
  service's cache and one of the five values differs from the row's.  A cached id is never
  compared, and a different price is never seen.
-/
import Kripto.Execution.Script

namespace Kripto.Execution

open Effect PersistentIntentLedger
open ExecutionService hiding id

variable {ε : Type}

/-! ## 1. Economic identity -/

/-- Account, symbol, side, order type, quantity. -/
abbrev Identity : Type := String × String × String × String × ℚ

def OrderRow.identity (row : OrderRow) : Identity :=
  (row.accountId, row.symbol, row.side, row.orderType, row.quantity)

def OrderIntent.identity (n : OrderIntent) : Identity :=
  (n.accountId, n.symbol, n.side, n.orderType, n.quantity)

/-- The error of `_assert_same_intent`. -/
def collision : Exc := .valueError "intent_id collision with different economic order"

theorem assertSameIntent_of_eq {row : OrderRow} {n : OrderIntent}
    (h : row.identity = n.identity) : assertSameIntent (toRecord row) n = .ok () :=
  if_neg (not_not.mpr h)

theorem assertSameIntent_of_ne {row : OrderRow} {n : OrderIntent}
    (h : row.identity ≠ n.identity) : assertSameIntent (toRecord row) n = .error collision :=
  if_pos h

/-- The ledger has a row for the id, with this identity. -/
def HasRow (id : String) (i : Identity) (w : World ε) : Prop :=
  ∃ row, w.orders id = some row ∧ row.identity = i

section Rows

variable [PyStr] [NumericColumn]

/-- **A row's identity is for ever.**  Inserts need a free id and marks leave it alone. -/
theorem HasRow.change {Ex : Exchange ε} {o : Op} {w w' : World ε} {id : String} {i : Identity}
    (h : HasRow id i w) (hc : Change Ex o w w') : HasRow id i w' := by
  obtain ⟨row, hrow, hi⟩ := h
  cases hc with
  | inserted _ row' free =>
    have hid : id ≠ row'.intentId := by
      rintro rfl
      rw [free] at hrow
      exact absurd hrow (by simp)
    exact ⟨row, by rw [World.setOrder_of_ne _ _ hid, hrow], hi⟩
  | marked _ id' record row' found =>
    by_cases hid : id = id'
    · subst hid
      obtain rfl : row = row' := Option.some.inj (hrow.symm.trans found)
      exact ⟨row.marked record, World.setOrder_self .., hi⟩
    · exact ⟨row, by rw [World.setOrder_of_ne _ _ hid, hrow], hi⟩
  | _ => exact ⟨row, hrow, hi⟩

theorem HasRow.session {Ex : Exchange ε} {w w' : World ε} {id : String} {i : Identity}
    {tr : List (Event execSig OrderRecord Call Between)} (h : HasRow id i w)
    (htr : Session (sequential Ex) w tr w') : HasRow id i w' := by
  refine sequential_keeps (fun o w w' hc hw => hw.change hc) (fun w service hw => hw) htr ?_ h
  rintro l - w₁ w₂ hw₁ hhap
  cases hhap <;> exact hw₁

/-! ## 2. The call that sends -/

/-- Everything but sending. -/
def Op.Sendless : Op → Prop
  | submitOrder _ => False
  | _ => True

omit [PyStr] [NumericColumn] in
theorem Op.Reads.sendless {o : Op} (h : o.Reads) : o.Sendless := by
  cases o <;> first | exact h.elim | trivial

theorem sendless_submitted {Ex : Exchange ε} {o : Op} (ho : o.Sendless) {w w' : World ε}
    (h : Change Ex o w w') : w'.submitted = w.submitted := by
  cases h with
  | sent => exact ho.elim
  | _ => rfl

variable {Ex : Exchange ε} {H : Handler execSig (World ε)} {self : ExecutionService}
  {a : SubmitArgs} {w : World ε}

theorem wp_sendless {α : Type} {p : Program α}
    (hH : ∀ o w r w', H o w r w' → handler Ex o w r w') (hp : p.Within Op.Sendless)
    {sent : List OrderIntent} (hw : w.submitted = sent) :
    wp H .free () p (fun _ w' => w'.submitted = sent) w := by
  refine wp_within (Protocol.stable_alone fun w : World ε => w.submitted = sent) ?_ hp hw
  rintro o w₁ r w₂ ho hw₁ - hop
  exact ⟨trivial, trivial, (sendless_submitted ho (handler_change (hH _ _ _ _ hop))).trans hw₁⟩

theorem wp_keepsRow {α : Type} {p : Program α}
    (hH : ∀ o w r w', H o w r w' → handler Ex o w r w') {id : String} {i : Identity}
    (hw : HasRow id i w) : wp H .free () p (fun _ => HasRow id i) w :=
  wp_free_keeps (fun o w r w' hw hop => hw.change (handler_change (hH o w r w' hop))) hw

theorem wp_insertedRow (hH : ∀ o w r w', H o w r w' → handler Ex o w r w') (row : OrderRow) :
    wp H .free () (perform (.insertOrder row))
      (fun r w' => r = .ok () → HasRow row.intentId row.stored.identity w') w := by
  refine wp_free_perform.mpr ?_
  intro r w' hop hr
  rcases hH _ _ _ _ hop with ⟨-, -, rfl⟩ | ⟨hr', -⟩
  · exact ⟨row.stored, World.setOrder_self .., rfl⟩
  · rw [hr] at hr'
    rcases hr' with hr' | hr' <;> exact absurd hr' (by simp)

/-- **A call that sent left a row with the normalized identity.**  `N` is what its normalization
guarantees. -/
theorem wp_sendsAfterInsert {N : OrderIntent → Prop}
    (hH : ∀ o w r w', H o w r w' → handler Ex o w r w') (hself : self.persistentIntents = true)
    (hnormalize : ∀ w, wp H .free () (normalizeRevalidated a)
      (fun r _ => ∀ n, r = .ok n → N n) w) :
    wp H .free () (self.submit a) (fun _ w' => w'.submitted = w.submitted ∨
      ∃ n, N n ∧ HasRow n.intentId (newRow n).stored.identity w') w := by
  have hreads : ∀ {α : Type} {p : Program α} (w' : World ε), p.Within Op.Sendless →
      w'.submitted = w.submitted → wp H .free () p (fun _ w' => w'.submitted = w.submitted) w' :=
    fun w' hp hw' => wp_sendless hH hp hw'
  have hleft : ∀ {α : Type} {p : Program α} (w' : World ε), p.Within Op.Sendless →
      w'.submitted = w.submitted → wp H .free () p (fun _ w' => w'.submitted = w.submitted ∨
        ∃ n, N n ∧ HasRow n.intentId (newRow n).stored.identity w') w' :=
    fun w' hp hw' => wp_mono (fun _ _ h => Or.inl h) (hreads w' hp hw')
  have hreconcile : ∀ expected, (reconcileExisting a.intent.intentId expected).Within
      Op.Sendless := fun expected =>
    within_reconcileExisting trivial (fun _ => trivial) fun _ => trivial
  refine wp_submit_around (P := fun w' => w'.submitted = w.submitted) ?_ ?_ ?_ ?_ ?_
  · exact fun w' hw' => hreads w' ((within_guards self a).mono fun _ ho => ho.reads.sendless) hw'
  · exact hreads w (Prog.within_perform.mpr trivial) rfl
  · rintro r w' (hw' | ⟨n, hn, hrow⟩)
    · refine wp_mono ?_ (hreads w' (Prog.within_perform.mpr trivial) hw')
      rintro (e | u) w'' hw'' <;> exact Or.inl hw''
    · refine wp_mono ?_ (wp_keepsRow hH hrow)
      rintro (e | u) w'' hw'' <;> exact Or.inr ⟨n, hn, hw''⟩
  · exact fun e w' hw' => Or.inl hw'
  · intro w₁ hw₁
    refine wp_submitAdmitted_of (P := fun w' => w'.submitted = w.submitted) (N := N)
      ?_ ?_ ?_ ?_ ?_ hw₁
    · exact fun e w' hw' => Or.inl hw'
    · intro w' hw'
      refine wp_mono ?_ (hreads w' (Prog.within_perform.mpr trivial) hw')
      rintro (e | (_ | record)) w'' hw''
      · exact hw''
      · exact hw''
      · exact Or.inl hw''
    · intro w' hw' _
      refine wp_mono ?_ (hreads w' (hreconcile _) hw')
      rintro (e | (_ | existing)) w'' hw''
      · exact Or.inl hw''
      · exact hw''
      · exact hleft w'' (within_adopt trivial) hw''
    · intro w' hw'
      exact wp_and (hreads w' ((within_normalizeRevalidated a trivial trivial trivial).mono
        fun _ => Op.Reads.sendless)
        hw') (hnormalize w')
    · intro n w' hw' hn
      rw [if_pos hself]
      refine wp_reserveAndSend_of (P := fun w' => w'.submitted = w.submitted)
        (O := HasRow n.intentId (newRow n).stored.identity) (wp_reserve_of ?_ ?_ ?_ hw') ?_ ?_ ?_
      · exact fun w' hw' => hreads w' (Prog.within_perform.mpr trivial) hw'
      · intro w' hw'
        refine wp_mono ?_ (wp_and (wp_insertedRow hH (newRow n))
          (hreads w' (Prog.within_perform.mpr trivial) hw'))
        rintro (e | u) w'' ⟨hrow, hw''⟩
        · exact hw''
        · exact hrow rfl
      · exact fun w' hrow => wp_keepsRow hH hrow
      · rintro e w' (hw' | hrow)
        · exact Or.inl hw'
        · exact Or.inr ⟨n, hn, hrow⟩
      · intro record w' hrow
        exact wp_mono (fun _ _ h => Or.inr ⟨n, hn, h⟩) (wp_keepsRow hH hrow)
      · intro w' hw'
        refine hleft w' (Prog.Within.bind (hreconcile _) fun resolved => ?_) hw'
        cases resolved with
        | none => exact Prog.within_raise _
        | some resolved => exact within_adopt trivial

/-! ## 3. Restart -/

/-- The exchange serves these filters. -/
def Serves (filters : SymbolFilters) : (o : Op) → World ε → execSig.Ans o → Prop
  | .getSymbolFilters _, _, .ok filters' => filters' = filters
  | _, _, _ => True

/-- Nothing fails: the database works, the exchange answers queries. -/
def Smooth : (o : Op) → World ε → execSig.Ans o → Prop
  | .selectOrder _, _, .error _ => False
  | .updateOrder .., _, .error _ => False
  | .getOrder .., _, .error _ => False
  | _, _, _ => True

/-- What the ledger answers for an id in `w`, with `w'` after: its record, or the exchange's, or
its record turned UNKNOWN -- and the row shows the state that was answered. -/
def Reconciled (id : String) (w w' : World ε) (record : OrderRecord) : Prop :=
  ∃ row row', w.orders id = some row ∧ w'.orders id = some row' ∧ row'.status = record.state ∧
    (record = toRecord row ∨ record = { toRecord row with state := .UNKNOWN } ∨
      (id, record) ∈ w'.reported)

/-- **Resubmission is idempotent** from `w₁` on: whatever happened in between, a service over the
ledger whose cache does not have the intent answers it from the ledger, once past its guards. -/
def Resubmits (Ex : Exchange ε) (a : SubmitArgs) (w₁ : World ε) : Prop :=
  ∀ tr w₂ self₂ r w₃, Session (sequential Ex) w₁ tr w₂ →
    self₂.persistentIntents = true → w₂.records self₂.id a.intent.intentId = none →
    Runs ((handler Ex).meeting Smooth) (submitAdmitted self₂ a) w₂ r w₃ →
    ∃ record, r = .ok record ∧ Reconciled a.intent.intentId w₂ w₃ record

/-- **The condition**: normalization is invisible to the comparison. -/
def NormalizationInvisible (filters : SymbolFilters) (intent : OrderIntent) : Prop :=
  PyStr.upper intent.orderType = intent.orderType ∧
    ∀ qty, normalizeQuantity intent.quantity filters.stepSize = .ok qty →
      NumericColumn.numeric qty = intent.quantity

/-- The row identity normalization under `filters` gives an intent. -/
def NormalizedIdentity (filters : SymbolFilters) (intent n : OrderIntent) : Prop :=
  ∃ qty, normalizeQuantity intent.quantity filters.stepSize = .ok qty ∧
    n.intentId = intent.intentId ∧
    (newRow n).stored.identity = (intent.accountId, intent.symbol, intent.side,
      PyStr.upper intent.orderType, NumericColumn.numeric qty)

theorem wp_normalizedIdentity {filters : SymbolFilters} {w : World ε} :
    wp ((handler Ex).meeting (Serves filters)) .free () (normalizeRevalidated a)
      (fun r _ => ∀ n, r = .ok n → NormalizedIdentity filters a.intent n) w := by
  refine wp_bind.mpr (wp_free_perform.mpr ?_)
  rintro (e | filters') w₁ ⟨-, hserved⟩
  · rintro n ⟨⟩
  obtain rfl : filters' = filters := hserved
  have htrue : ∀ {α : Type} (p : Program α) w, wp ((handler Ex).meeting (Serves filters'))
      .free () p (fun _ _ => True) w :=
    fun p w => wp_free_keeps (fun _ _ _ _ _ _ => trivial) trivial
  refine wp_mono (fun r w h => h.2) (wp_returns ?_ (htrue _ w₁))
  refine Prog.Returns.bind Prog.returns_perform fun cap _ => ?_
  refine Prog.Returns.bind (Prog.returns_ofExcept fun n hn => hn) fun n hn => ?_
  have hidentity : NormalizedIdentity filters' a.intent n := by
    obtain ⟨qty, price, hqty, -, heq⟩ := normalizeAndValidate_eq_ok hn
    rw [heq]
    exact ⟨qty, hqty, rfl, rfl⟩
  refine Prog.Returns.bind Prog.returns_perform fun currentFilters _ => ?_
  refine Prog.Returns.bind Prog.returns_perform fun currentCap _ => ?_
  split
  · exact Prog.Returns.bind Prog.returns_perform fun _ _ => trivial
  · exact hidentity

/-- After a first call that sent, the row has the normalized identity. -/
theorem hasRow_of_sent {filters : SymbolFilters} {w w₁ : World ε} {r : Except Exc OrderRecord}
    (hself : self.persistentIntents = true)
    (hrun : Runs ((handler Ex).meeting (Serves filters)) (self.submit a) w r w₁)
    (hsent : w₁.submitted ≠ w.submitted) :
    ∃ qty, normalizeQuantity a.intent.quantity filters.stepSize = .ok qty ∧
      HasRow a.intent.intentId (a.intent.accountId, a.intent.symbol, a.intent.side,
        PyStr.upper a.intent.orderType, NumericColumn.numeric qty) w₁ := by
  rcases hrun.of_wp (wp_sendsAfterInsert (fun _ _ _ _ => And.left) hself
    fun w => wp_normalizedIdentity) with hsame | ⟨n, ⟨qty, hqty, hid, hidentity⟩, hrow⟩
  · exact absurd hsame hsent
  · rw [hid, hidentity] at hrow
    exact ⟨qty, hqty, hrow⟩

/-- A mark that goes through, on a row that is there. -/
theorem wp_smoothMark {id : String} {record : OrderRecord} {row : OrderRow} {w : World ε}
    (hrow : w.orders id = some row) :
    wp ((handler Ex).meeting Smooth) .free () (mark id record)
      (fun r w' => r = .ok () ∧ w' = w.setOrder id (row.marked record)) w := by
  refine wp_mark_of (wp_free_perform.mpr ?_)
  rintro (e | found) w' ⟨hop, hsmooth⟩
  · exact hsmooth.elim
  · rcases hop with ⟨row', hrow', hr, rfl⟩ | ⟨hnone, -, -⟩ | ⟨hr, -⟩
    · obtain rfl : row = row' := Option.some.inj (hrow.symm.trans hrow')
      obtain rfl := Except.ok.inj hr
      exact ⟨rfl, rfl⟩
    · rw [hrow] at hnone
      exact absurd hnone (by simp)
    · cases hr

/-- **Reconciliation of a row the intent agrees with.** -/
theorem wp_smoothReconcile {w : World ε} (hrow : HasRow a.intent.intentId a.intent.identity w) :
    wp ((handler Ex).meeting Smooth) .free ()
      (reconcileExisting a.intent.intentId (some a.intent))
      (fun r w' => ∃ record, r = .ok (some record) ∧
        Reconciled a.intent.intentId w w' record) w := by
  obtain ⟨row, hfound, hidentity⟩ := hrow
  refine wp_reconcile_of (F := fun row' w' => row' = row ∧ w' = w) ?_ ?_ ?_ ?_
  · refine wp_free_perform.mpr ?_
    rintro (e | found) w' ⟨⟨hr, rfl⟩, hsmooth⟩
    · exact hsmooth.elim
    · rcases hr with hr | hr
      · obtain rfl : found = some row := (Except.ok.inj hr).trans hfound
        exact ⟨rfl, rfl⟩
      · cases hr
  · rintro row' e w' ⟨rfl, rfl⟩ hexp
    rw [assertExpected, assertSameIntent_of_eq hidentity] at hexp
    cases hexp
  · rintro row' w' ⟨rfl, rfl⟩ - - -
    exact ⟨_, rfl, row', row', hfound, hfound, rfl, Or.inl rfl⟩
  · rintro row' w' ⟨rfl, rfl⟩ - -
    refine wp_resolve_of (wp_free_perform.mpr ?_)
    rintro (e | remote) w₁ ⟨⟨v, -, rfl⟩, hsmooth⟩
    · exact hsmooth.elim
    · have hfound₁ : (w'.asked a.intent.intentId v (.ok remote)).orders a.intent.intentId =
          some row' := hfound
      refine wp_mono ?_ (wp_smoothMark hfound₁)
      rintro r w₂ ⟨rfl, rfl⟩
      refine ⟨_, rfl, row', _, hfound, World.setOrder_self .., rfl, ?_⟩
      cases remote with
      | none => exact Or.inr (Or.inl rfl)
      | some remote => exact Or.inr (Or.inr (List.mem_cons_self ..))

/-- **An intent the row agrees with is answered from the ledger.** -/
theorem wp_resubmit {self₂ : ExecutionService} {w : World ε}
    (hself : self₂.persistentIntents = true)
    (hcache : w.records self₂.id a.intent.intentId = none)
    (hrow : HasRow a.intent.intentId a.intent.identity w) :
    wp ((handler Ex).meeting Smooth) .free () (submitAdmitted self₂ a)
      (fun r w' => ∃ record, r = .ok record ∧ Reconciled a.intent.intentId w w' record) w := by
  refine wp_bind.mpr (wp_free_perform.mpr ?_)
  rintro r w₁ ⟨⟨rfl, rfl⟩, -⟩
  rw [onOk_ok, hcache]
  change wp _ _ _ (submitUncached self₂ a) _ w₁
  unfold submitUncached
  rw [if_pos hself]
  refine wp_bind.mpr (wp_mono ?_ (wp_smoothReconcile hrow))
  rintro r w₂ ⟨record, rfl, hrec⟩
  refine wp_bind.mpr (wp_free_perform.mpr ?_)
  rintro r w₃ ⟨⟨rfl, rfl⟩, -⟩
  exact ⟨record, rfl, hrec⟩

/-- **An intent the row disagrees with can only collide.** -/
theorem may_collide {self₂ : ExecutionService} {w : World ε} {row : OrderRow}
    (hself : self₂.persistentIntents = true)
    (hcache : w.records self₂.id a.intent.intentId = none)
    (hrow : w.orders a.intent.intentId = some row) (hne : row.identity ≠ a.intent.identity) :
    may ((handler Ex).meeting Smooth) (submitAdmitted self₂ a)
      (fun r _ => r = .error collision) w := by
  refine may_bind.mpr (may_perform.mpr ⟨.ok (w.records self₂.id a.intent.intentId), w,
    ⟨⟨rfl, rfl⟩, trivial⟩, ?_⟩)
  rw [onOk_ok, hcache]
  change may _ (submitUncached self₂ a) _ w
  unfold submitUncached
  rw [if_pos hself]
  refine may_bind.mpr (may_bind.mpr (may_bind.mpr (may_perform.mpr
    ⟨.ok (w.orders a.intent.intentId), w, ⟨⟨Or.inl rfl, rfl⟩, trivial⟩, ?_⟩)))
  rw [onOk_ok, hrow]
  refine may_bind.mpr (may_ofExcept.mpr ?_)
  rw [assertExpected, assertSameIntent_of_ne hne]
  rfl

/-- **Restart idempotency holds exactly where normalization is invisible.**  The first call is
any run that sent the order under these filters. -/
theorem resubmits_iff {filters : SymbolFilters} {w w₁ : World ε} {r : Except Exc OrderRecord}
    (hself : self.persistentIntents = true)
    (hrun : Runs ((handler Ex).meeting (Serves filters)) (self.submit a) w r w₁)
    (hsent : w₁.submitted ≠ w.submitted) :
    Resubmits Ex a w₁ ↔ NormalizationInvisible filters a.intent := by
  obtain ⟨qty, hqty, hrow⟩ := hasRow_of_sent hself hrun hsent
  have hidentity : NormalizationInvisible filters a.intent ↔
      (a.intent.accountId, a.intent.symbol, a.intent.side, PyStr.upper a.intent.orderType,
        NumericColumn.numeric qty) = a.intent.identity := by
    simp only [NormalizationInvisible, OrderIntent.identity, Prod.mk.injEq, true_and, hqty,
      Except.ok.injEq, forall_eq']
  rw [hidentity]
  constructor
  · -- The restarted service is one of those that have to answer.
    intro h
    by_contra hne
    obtain ⟨row, hfound, hrowid⟩ := hrow
    have hcache : (w₁.restarted self).records self.id a.intent.intentId = none := by
      simp [World.restarted]
    obtain ⟨r', w₃, hrun', rfl⟩ := may_iff.mp (may_collide (w := w₁.restarted self) hself hcache
      hfound (hrowid ▸ hne))
    obtain ⟨record, hok, -⟩ := h [.idle (.restart self)] _ self _ w₃
      (.idle _ (.restart self w₁) (.nil _)) hself hcache hrun'
    cases hok
  · intro heq tr w₂ self₂ r' w₃ htr hself₂ hcache hrun'
    rw [heq] at hrow
    exact hrun'.of_wp (wp_resubmit hself₂ hcache (hrow.session htr))

/-- Restart idempotency of every order that was sent. -/
def RestartIdempotent (Ex : Exchange ε) : Prop :=
  ∀ (self : ExecutionService) a w r w₁, self.persistentIntents = true →
    Runs (handler Ex) (self.submit a) w r w₁ → w₁.submitted ≠ w.submitted → Resubmits Ex a w₁

/-! ## 4. Reuse -/

/-- The two intents ask for different orders. -/
def OrderIntent.Differs (n n' : OrderIntent) : Prop :=
  n.identity ≠ n'.identity ∨ n.price ≠ n'.price

/-- The call raises, however it goes. -/
def Raises (Ex : Exchange ε) (self : ExecutionService) (a : SubmitArgs) (w : World ε) : Prop :=
  ∀ r w', Runs (handler Ex) (self.submit a) w r w' → ∃ e, r = .error e

/-- **The condition**: the cache has nothing for the id, and the row disagrees. -/
def Detectable (self : ExecutionService) (n : OrderIntent) (w : World ε) : Prop :=
  w.records self.id n.intentId = none ∧
    ∀ row, w.orders n.intentId = some row → row.identity ≠ n.identity

/-- The lock is free and the guards can pass. -/
structure Admits (Ex : Exchange ε) (service : ExecutionService) (a : SubmitArgs)
    (w : World ε) : Prop where
  free : w.held service.accountLocks a.intent.accountId = false
  pass : may (handler Ex) (guards service a)
    (fun r w' => r = .ok () ∧ w' = w.setHeld service.accountLocks a.intent.accountId true)
    (w.setHeld service.accountLocks a.intent.accountId true)

/-- The exchange can answer a query, one way or another. -/
def Exchange.Answers (Ex : Exchange ε) : Prop :=
  ∀ id q v, ∃ x v', Ex.get id q v (.ok x) v'

omit [PyStr] [NumericColumn] in
/-- The world for a call is the same when its lock is taken. -/
theorem Detectable.held {n : OrderIntent} {w : World ε} (h : Detectable self n w) (locks : ℕ)
    (account : String) (b : Bool) : Detectable self n (w.setHeld locks account b) := h

/-- **A detectable reuse raises.** -/
theorem wp_detected {w : World ε} {i : Identity} (hself : self.persistentIntents = true)
    (hrow : HasRow a.intent.intentId i w) (h : Detectable self a.intent w) :
    wp (handler Ex) .free () (self.submit a) (fun r _ => ∃ e, r = .error e) w := by
  have hreads : ∀ {α : Type} {p : Program α} (w' : World ε), p.Within Op.Reads →
      Detectable self a.intent w' ∧ HasRow a.intent.intentId i w' →
      wp (handler Ex) .free () p (fun _ w' => Detectable self a.intent w' ∧
        HasRow a.intent.intentId i w') w' := by
    intro α p w' hp hw'
    refine wp_within (Protocol.stable_alone
      fun w' : World ε => Detectable self a.intent w' ∧ HasRow a.intent.intentId i w') ?_ hp hw'
    rintro o w₁ r w₂ ho hw₁ - hop
    rw [handler_reads ho hop]
    exact ⟨trivial, trivial, hw₁⟩
  refine wp_submit_around (P := fun w' => Detectable self a.intent w' ∧
    HasRow a.intent.intentId i w') ?_ ?_ ?_ ?_ ?_
  · exact fun w' => hreads w' ((within_guards self a).mono fun _ => Op.Asks.reads)
  · refine wp_free_perform.mpr ?_
    rintro r w' (⟨-, -, rfl⟩ | ⟨e, -, rfl⟩)
    · exact ⟨h.held .., hrow⟩
    · exact ⟨h, hrow⟩
  · rintro r w' ⟨e, rfl⟩
    refine wp_free_perform.mpr ?_
    rintro r w'' ⟨rfl, rfl⟩
    exact ⟨e, rfl⟩
  · exact fun e w' _ => ⟨e, rfl⟩
  · rintro w₁ ⟨⟨hcache, hne⟩, row, hfound, -⟩
    refine wp_bind.mpr (wp_free_perform.mpr ?_)
    rintro r w₂ ⟨rfl, rfl⟩
    rw [onOk_ok, hcache]
    change wp _ _ _ (submitUncached self a) _ w₂
    unfold submitUncached
    rw [if_pos hself]
    refine wp_bind.mpr (wp_mono ?_ (?_ : wp (handler Ex) .free ()
      (reconcileExisting a.intent.intentId (some a.intent)) (fun r _ => ∃ e, r = .error e) w₂))
    · rintro r w₃ ⟨e, rfl⟩
      exact ⟨e, rfl⟩
    · refine wp_reconcile_of (F := fun row' _ => row' = row) ?_ ?_ ?_ ?_
      · refine wp_free_perform.mpr ?_
        rintro (e | found) w₃ ⟨hr, rfl⟩
        · exact ⟨e, rfl⟩
        · rcases hr with hr | hr
          · obtain rfl : found = some row := (Except.ok.inj hr).trans hfound
            rfl
          · cases hr
      · exact fun _ e _ _ _ => ⟨e, rfl⟩
      · rintro row' w₃ rfl hexp
        rw [assertExpected, assertSameIntent_of_ne (hne row' hfound)] at hexp
        cases hexp
      · rintro row' w₃ rfl hexp
        rw [assertExpected, assertSameIntent_of_ne (hne row' hfound)] at hexp
        cases hexp

/-- The lock and the guards do not get in the way of an admitted call. -/
theorem may_submit_of_admits {w : World ε} (h : Admits Ex self a w)
    (hadmitted : may (handler Ex) (submitAdmitted self a) (fun r _ => ∃ record, r = .ok record)
      (w.setHeld self.accountLocks a.intent.accountId true)) :
    may (handler Ex) (self.submit a) (fun r _ => ∃ record, r = .ok record) w := by
  refine may_bind.mpr (may_perform.mpr ⟨.ok (), _, Or.inl ⟨h.free, rfl, rfl⟩, ?_⟩)
  refine may_finally.mpr (may_bind.mpr (may_mono ?_ h.pass))
  rintro r w₁ ⟨rfl, rfl⟩
  refine may_mono ?_ hadmitted
  rintro r w₂ ⟨record, rfl⟩
  exact may_perform.mpr ⟨.ok (), _, ⟨rfl, rfl⟩, record, rfl⟩

/-- **A cached id is answered**, whatever the intent asks for. -/
theorem may_answer_cached {w : World ε} {record : OrderRecord}
    (h : w.records self.id a.intent.intentId = some record) :
    may (handler Ex) (submitAdmitted self a) (fun r _ => ∃ record, r = .ok record) w := by
  refine may_bind.mpr (may_perform.mpr ⟨.ok (w.records self.id a.intent.intentId), w,
    ⟨rfl, rfl⟩, ?_⟩)
  rw [onOk_ok, h]
  exact ⟨record, rfl⟩

/-- **A row that agrees is answered**, whatever the price. -/
theorem may_answer_row {w : World ε} {row : OrderRow} (hself : self.persistentIntents = true)
    (hget : Ex.Answers) (hcache : w.records self.id a.intent.intentId = none)
    (hrow : w.orders a.intent.intentId = some row) (heq : row.identity = a.intent.identity) :
    may (handler Ex) (submitAdmitted self a) (fun r _ => ∃ record, r = .ok record) w := by
  have hadopt : ∀ record (w : World ε), may (handler Ex) (adopt self a record)
      (fun r _ => ∃ record, r = .ok record) w := fun record w =>
    may_bind.mpr (may_perform.mpr ⟨.ok (), _, ⟨rfl, rfl⟩, record, rfl⟩)
  have hmark : ∀ record (w : World ε), w.orders a.intent.intentId = some row →
      may (handler Ex) (mark a.intent.intentId record) (fun r _ => r = .ok ()) w :=
    fun record w hfound => may_bind.mpr (may_perform.mpr
      ⟨.ok true, _, Or.inl ⟨row, hfound, rfl, rfl⟩, rfl⟩)
  have hresolve : ∀ current, may (handler Ex) (resolve a.intent.intentId current)
      (fun r _ => ∃ record, r = .ok record) w := by
    intro current
    obtain ⟨x, v, hx⟩ := hget a.intent.intentId
      ⟨current.symbol, current.exchangeOrderId, current.clientOrderId⟩ w.venue
    refine may_bind.mpr (may_perform.mpr ⟨.ok x, w.asked a.intent.intentId v (.ok x),
      ⟨v, hx, rfl⟩, ?_⟩)
    cases x with
    | none =>
      refine may_bind.mpr (may_mono ?_ (hmark { current with state := .UNKNOWN } _ hrow))
      rintro r w₁ rfl
      exact ⟨_, rfl⟩
    | some remote =>
      refine may_bind.mpr (may_mono ?_ (hmark remote _ hrow))
      rintro r w₁ rfl
      exact ⟨_, rfl⟩
  refine may_bind.mpr (may_perform.mpr ⟨.ok (w.records self.id a.intent.intentId), w,
    ⟨rfl, rfl⟩, ?_⟩)
  rw [onOk_ok, hcache]
  change may _ (submitUncached self a) _ w
  unfold submitUncached
  rw [if_pos hself]
  refine may_bind.mpr (may_bind.mpr (may_bind.mpr (may_perform.mpr
    ⟨.ok (w.orders a.intent.intentId), w, ⟨Or.inl rfl, rfl⟩, ?_⟩)))
  rw [onOk_ok, hrow]
  refine may_bind.mpr (may_ofExcept.mpr ?_)
  rw [assertExpected, assertSameIntent_of_eq heq, onOk_ok]
  by_cases hstate : (toRecord row).state ≠ .SUBMITTED ∧ (toRecord row).state ≠ .UNKNOWN
  · change may _ (if _ then _ else _) _ w
    rw [if_pos hstate]
    exact hadopt _ w
  · change may _ (if _ then _ else _) _ w
    rw [if_neg hstate]
    refine may_bind.mpr (may_mono ?_ (hresolve (toRecord row)))
    rintro r w₁ ⟨record, rfl⟩
    exact hadopt record w₁

/-- **Reuse of an id is refused exactly when it is detectable.**  The id was sent before, by any
service, and any history may lie between; the new call finds the earlier order in its cache or
in the ledger. -/
theorem raises_iff_detectable {self₂ : ExecutionService} {b : SubmitArgs} {w w₁ w₂ : World ε}
    {r : Except Exc OrderRecord} {tr : List (Event execSig OrderRecord Call Between)}
    (hrun : Runs (handler Ex) (self.submit a) w r w₁) (hsent : w₁.submitted ≠ w.submitted)
    (htr : Session (sequential Ex) w₁ tr w₂) (hid : b.intent.intentId = a.intent.intentId)
    (hfound : w₂.records self₂.id b.intent.intentId ≠ none ∨
      (self.persistentIntents = true ∧ self₂.persistentIntents = true))
    (hadmits : Admits Ex self₂ b w₂) (hget : Ex.Answers) :
    Raises Ex self₂ b w₂ ↔ Detectable self₂ b.intent w₂ := by
  have hanswers : may (handler Ex) (submitAdmitted self₂ b) (fun r _ => ∃ record, r = .ok record)
      (w₂.setHeld self₂.accountLocks b.intent.accountId true) → ¬Raises Ex self₂ b w₂ := by
    intro hmay hraises
    obtain ⟨r', w₃, hrun', record, rfl⟩ := may_iff.mp (may_submit_of_admits hadmits hmay)
    obtain ⟨e, he⟩ := hraises _ w₃ hrun'
    cases he
  cases hcache : w₂.records self₂.id b.intent.intentId with
  | some record =>
    constructor
    · intro hraises
      exact absurd hraises (hanswers (may_answer_cached hcache))
    · rintro ⟨hnone, -⟩
      rw [hcache] at hnone
      cases hnone
  | none =>
    rw [hcache] at hfound
    obtain ⟨hself, hself₂⟩ := hfound.resolve_left (fun hne => hne rfl)
    have hrow : ∃ i, HasRow b.intent.intentId i w₂ := by
      have htrue : ∀ w, wp (handler Ex) .free () (normalizeRevalidated a)
          (fun r _ => ∀ n, r = .ok n → n.intentId = a.intent.intentId) w := by
        intro w
        refine wp_mono ?_ (wp_returns (returns_normalizeRevalidated a)
          (wp_free_keeps (P := fun _ => True) (fun _ _ _ _ _ _ => trivial) trivial))
        rintro r w ⟨-, hn⟩ n rfl
        obtain ⟨filters, cap, hn⟩ := hn n rfl
        obtain ⟨qty, price, -, -, heq⟩ := normalizeAndValidate_eq_ok hn
        rw [heq]
      rcases hrun.of_wp (wp_sendsAfterInsert (fun _ _ _ _ h => h) hself htrue) with
        hsame | ⟨n, hn, hrow⟩
      · exact absurd hsame hsent
      · rw [hn, ← hid] at hrow
        exact ⟨_, hrow.session htr⟩
    constructor
    · intro hraises
      refine ⟨hcache, fun row hrow heq => ?_⟩
      exact hanswers (may_answer_row (w := w₂.setHeld _ _ true) hself₂ hget hcache hrow heq)
        hraises
    · intro hdet r' w₃ hrun'
      obtain ⟨i, hrow⟩ := hrow
      exact hrun'.of_wp (wp_detected hself₂ hrow hdet)

/-- Every reuse of an id for a different order is refused. -/
def ReuseDetected (Ex : Exchange ε) : Prop :=
  ∀ (self : ExecutionService) a w r w₁ tr w₂ self₂ b,
    Runs (handler Ex) (self.submit a) w r w₁ → w₁.submitted ≠ w.submitted →
    Session (sequential Ex) w₁ tr w₂ → b.intent.intentId = a.intent.intentId →
    (w₂.records self₂.id b.intent.intentId ≠ none ∨
      (self.persistentIntents = true ∧ self₂.persistentIntents = true)) →
    a.intent.Differs b.intent → Raises Ex self₂ b w₂

end Rows

/-! ## 5. Three runs -/

section Runs

attribute [local instance] asciiStr exactColumn

/-- The limit order of the examples, with its type spelled as given. -/
def SubmitArgs.spelled (orderType : String) : SubmitArgs :=
  { SubmitArgs.limitBuy "i-1" with
    intent := { (SubmitArgs.limitBuy "i-1").intent with orderType := orderType } }

/-- The first call, accepted and acknowledged. -/
def spelledOnce (orderType : String) : Except Exc OrderRecord × World Unit :=
  ((ExecutionService.process false).submit (.spelled orderType)).play
    (cooperate .plain .acknowledging) (World.empty ())

theorem cooperate_serves {ε : Type} (m : Instrument) (v : Venue ε) :
    (cooperate m v).Picks ((handler (Exchange.any ε)).meeting (Serves m.filters)) := by
  intro o w
  refine ⟨cooperate_picks v.picks_any m o w, ?_⟩
  cases o <;> first | exact rfl | trivial

theorem resubmits_iff_spelled :
    Resubmits (Exchange.any Unit) (.spelled "LIMIT") (spelledOnce "LIMIT").2 := by
  have hrun := runs_play (cooperate_serves .plain Venue.acknowledging)
    ((ExecutionService.process false).submit (.spelled "LIMIT")) (World.empty ())
  have hsent : (spelledOnce "LIMIT").2.submitted ≠ (World.empty ()).submitted := by
    decide +kernel
  refine (resubmits_iff rfl hrun hsent).mpr ⟨by decide, ?_⟩
  have hqty : normalizeQuantity (SubmitArgs.spelled "LIMIT").intent.quantity
      Instrument.plain.filters.stepSize = .ok 1 := by decide +kernel
  intro qty h
  obtain rfl := Except.ok.inj (hqty.symm.trans h)
  rfl

/-- **A `limit` order collides with itself**: its row says `LIMIT`. -/
theorem not_restart_idempotent : ¬RestartIdempotent (Exchange.any Unit) := by
  intro h
  have hrun := runs_play (cooperate_picks Venue.acknowledging.picks_any .plain)
    ((ExecutionService.process false).submit (.spelled "limit")) (World.empty ())
  have hsent : (spelledOnce "limit").2.submitted ≠ (World.empty ()).submitted := by
    decide +kernel
  have hrow : ((spelledOnce "limit").2.orders "i-1").map (·.identity) =
      some ("acct", "BTCUSDT", "BUY", "LIMIT", 1) := by decide +kernel
  obtain ⟨row, hfound, hidentity⟩ := Option.map_eq_some_iff.mp hrow
  have hne : row.identity ≠ (SubmitArgs.spelled "limit").intent.identity := by
    rw [hidentity]
    decide
  have hfresh : ((spelledOnce "limit").2.restarted (.process false)).records 0 "i-1" = none := by
    simp [World.restarted, ExecutionService.process]
  have hcollide : may ((handler (Exchange.any Unit)).meeting Smooth)
      (submitAdmitted (.process false) (.spelled "limit")) (fun r _ => r = .error collision)
      ((spelledOnce "limit").2.restarted (.process false)) :=
    may_collide rfl hfresh hfound hne
  obtain ⟨r, w₃, hrun₂, rfl⟩ := may_iff.mp hcollide
  obtain ⟨record, hok, -⟩ := h (.process false) (.spelled "limit") _ _ _ rfl hrun hsent
    [.idle (.restart (.process false))] _ (.process false) _ w₃
    (.idle _ (.restart _ _) (.nil _)) rfl hfresh hrun₂
  cases hok

/-- The same id for another symbol. -/
def SubmitArgs.otherSymbol : SubmitArgs :=
  { SubmitArgs.limitBuy "i-1" with
    intent := { (SubmitArgs.limitBuy "i-1").intent with symbol := "ETHUSDT" } }

theorem cooperates_any :
    (cooperate .plain Venue.acknowledging).Picks (handler (Exchange.any Unit)) :=
  cooperate_picks Venue.acknowledging.picks_any .plain

/-- A plain order is sent. -/
theorem runs_spelledOnce : Runs (handler (Exchange.any Unit))
    ((ExecutionService.process false).submit (.spelled "LIMIT")) (World.empty ())
      (spelledOnce "LIMIT").1 (spelledOnce "LIMIT").2 ∧
    (spelledOnce "LIMIT").2.submitted ≠ (World.empty ()).submitted :=
  ⟨runs_play cooperates_any _ _, by decide +kernel⟩

/-- After a restart the other symbol is found out. -/
theorem raises_iff_detectable_restarted :
    Raises (Exchange.any Unit) (.process false) .otherSymbol
      ((spelledOnce "LIMIT").2.restarted (.process false)) := by
  obtain ⟨hrun, hsent⟩ := runs_spelledOnce
  have hadmits : Admits (Exchange.any Unit) (.process false) .otherSymbol
      ((spelledOnce "LIMIT").2.restarted (.process false)) := by
    refine ⟨by decide, ?_⟩
    exact may_iff.mpr ⟨_, _, runs_play cooperates_any _ _, rfl, rfl⟩
  have hget : (Exchange.any Unit).Answers := fun _ _ v => ⟨none, v, trivial⟩
  have htr : Session (sequential (Exchange.any Unit)) (spelledOnce "LIMIT").2
      [.idle (.restart (.process false))]
      ((spelledOnce "LIMIT").2.restarted (.process false)) :=
    .idle _ (.restart (.process false) _) (.nil _)
  have hid : SubmitArgs.otherSymbol.intent.intentId =
      (SubmitArgs.spelled "LIMIT").intent.intentId := rfl
  refine (raises_iff_detectable hrun hsent htr hid (Or.inr ⟨rfl, rfl⟩) hadmits hget).mpr
    ⟨by decide, ?_⟩
  have hrow : (((spelledOnce "LIMIT").2.restarted (.process false)).orders "i-1").map
      (·.identity) = some ("acct", "BTCUSDT", "BUY", "LIMIT", 1) := by decide +kernel
  intro row hfound hidentity
  change ((spelledOnce "LIMIT").2.restarted (.process false)).orders "i-1" = some row at hfound
  rw [hfound, Option.map_some, hidentity] at hrow
  exact absurd hrow (by decide)

/-- **Without a restart it is answered with the other order.** -/
theorem reuse_not_detected : ¬ReuseDetected (Exchange.any Unit) := by
  intro h
  obtain ⟨hrun, hsent⟩ := runs_spelledOnce
  have hcached : ((spelledOnce "LIMIT").2.records 0 "i-1").isSome = true := by decide +kernel
  have hdiff : (SubmitArgs.spelled "LIMIT").intent.Differs SubmitArgs.otherSymbol.intent :=
    Or.inl (by decide)
  obtain ⟨e, he⟩ := h (.process false) (.spelled "LIMIT") _ _ _ [] _ (.process false)
    .otherSymbol hrun hsent (.nil _) rfl (Or.inl (Option.ne_none_iff_isSome.mpr hcached)) hdiff
    _ _ (runs_play cooperates_any _ _)
  have hanswered : returnedState (((ExecutionService.process false).submit .otherSymbol).play
      (cooperate .plain .acknowledging) (spelledOnce "LIMIT").2).1 = some .ACKNOWLEDGED := by
    decide +kernel
  obtain ⟨record, hrecord, -⟩ := returnedState_eq_some hanswered
  exact absurd (hrecord.symm.trans he) (by simp)

end Runs

end Kripto.Execution
