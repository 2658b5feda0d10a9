/-
# Which orders the exposure gates refuse

`submit` begins with two gates: one for isolated symbols, one for the state of the risk machine.
Both look at the intent's `reduce_only` flag and at nothing else of it.

* `symbol_refused_iff` and `risk_refused_iff`: which submissions can end with the refusal of
  the one gate or of the other.

Nothing behind the gates raises their exceptions (`raises_submitAdmitted`), so a refusal that
comes back from `submit` is theirs, as long as the collaborators do not raise the same text.
-/
import Kripto.Execution.Service
import Kripto.Risk.State

namespace Kripto.Execution

open Effect PersistentIntentLedger
open Risk (RiskMachine)

/-! ## 1. The refusals -/

def symbolRefusal : Exc := .permissionError "symbol isolated due to unresolved execution state"

def riskRefusal : Exc := .permissionError "risk state blocks new exposure"

/-- An exception that is not one of the gates'. -/
def NoRefusal (e : Exc) : Prop := e ≠ symbolRefusal ∧ e ≠ riskRefusal

instance (e : Exc) : Decidable (NoRefusal e) := inferInstanceAs (Decidable (_ ∧ _))

theorem noRefusal_valueError (msg : String) : NoRefusal (.valueError msg) :=
  ⟨nofun, nofun⟩

theorem noRefusal_lookupError (msg : String) : NoRefusal (.lookupError msg) :=
  ⟨nofun, nofun⟩

theorem noRefusal_zeroDivisionError (msg : String) : NoRefusal (.zeroDivisionError msg) :=
  ⟨nofun, nofun⟩

/-- The rejection of a pre-trade check begins with a text of its own. -/
theorem noRefusal_rejected (reasons : String) :
    NoRefusal (.permissionError ("pre-trade rejected: " ++ reasons)) := by
  have hhead : ("pre-trade rejected: " ++ reasons).toList.head? = some 'p' := by simp
  constructor
  · intro h
    rw [Exc.permissionError.inj h] at hhead
    exact absurd hhead (by decide)
  · intro h
    rw [Exc.permissionError.inj h] at hhead
    exact absurd hhead (by decide)

/-! ## 2. The pure checks -/

/-- The exceptions of a check are not the gates'. -/
def Spares {α : Type} (x : Except Exc α) : Prop := ∀ e, x = .error e → NoRefusal e

theorem spares_ok {α : Type} (a : α) : Spares (.ok a) := fun _ h => nomatch h

theorem spares_error {α : Type} {e : Exc} (h : NoRefusal e) : Spares (.error e : Except Exc α) := by
  rintro e' ⟨⟩
  exact h

theorem Spares.bind {α β : Type} {x : Except Exc α} {f : α → Except Exc β} (hx : Spares x)
    (hf : ∀ a, Spares (f a)) : Spares (x >>= f) := by
  cases x with
  | ok a => exact hf a
  | error e =>
    rintro e' ⟨⟩
    exact hx e rfl

theorem spares_raiseIf {c : Prop} [Decidable c] {e : Exc} (h : NoRefusal e) :
    Spares (raiseIf c e) := by
  unfold raiseIf
  split
  · exact spares_error h
  · exact spares_ok ()

section Checks

variable [PyStr]

theorem spares_validateReduceOnly (intent : OrderIntent) (position : Option ℚ) :
    Spares (validateReduceOnly intent position) := by
  unfold validateReduceOnly
  split_ifs
  · exact spares_ok ()
  cases position with
  | none => exact spares_error (by decide)
  | some q =>
    simp only
    split_ifs
    · exact spares_error (by decide)
    · exact spares_error (by decide)
    · exact spares_error (by decide)
    · exact spares_error (by decide)
    · exact spares_ok ()

theorem spares_validateSpotSellBalance (intent : OrderIntent) (available : Option ℚ) :
    Spares (validateSpotSellBalance intent available) := by
  unfold validateSpotSellBalance
  split_ifs
  · exact spares_ok ()
  · exact spares_ok ()
  cases available with
  | none => exact spares_error (by decide)
  | some q =>
    simp only
    split_ifs
    · exact spares_error (by decide)
    · exact spares_error (by decide)
    · exact spares_ok ()

theorem spares_requirePretrade (intent : OrderIntent) (limits : PreTradeLimits)
    (ctx : PreTradeContext) (now : ℤ) : Spares (requirePretrade intent limits ctx now) := by
  refine .bind (.bind (spares_raiseIf (noRefusal_valueError _)) fun _ => .bind ?_ fun _ =>
    spares_ok _) fun decision => .bind (spares_raiseIf (noRefusal_rejected _)) fun _ => spares_ok _
  unfold guardBps
  split_ifs
  · exact spares_error (noRefusal_valueError _)
  · exact spares_ok _

theorem spares_quantizeStep (value step : ℚ) (direction : Direction) :
    Spares (quantizeStep value step direction) := by
  unfold quantizeStep
  split_ifs
  · exact spares_error (noRefusal_valueError _)
  · exact spares_ok _

theorem spares_normalizeAndValidate (intent : OrderIntent) (filters : SymbolFilters)
    (cap : Capabilities) (referencePrice maxDeviationBps : ℚ) :
    Spares (normalizeAndValidate intent filters cap referencePrice maxDeviationBps) := by
  have hraise : ∀ {c : Prop} [Decidable c] {msg : String},
      Spares (raiseIf c (.valueError msg)) := spares_raiseIf (noRefusal_valueError _)
  have hprice : Spares (normalizedPrice intent filters) := by
    unfold normalizedPrice
    cases intent.price with
    | none => exact spares_ok none
    | some p => exact (spares_quantizeStep _ _ _).bind fun _ => spares_ok _
  have hcollar : ∀ price, Spares (checkCollar price referencePrice maxDeviationBps) := by
    intro price
    cases price with
    | none => exact spares_ok ()
    | some p =>
      refine .bind ?_ fun _ => hraise
      unfold bpsDistance
      split_ifs
      · exact spares_error (noRefusal_zeroDivisionError _)
      · exact spares_ok _
  exact hraise.bind fun _ => (spares_quantizeStep _ _ _).bind fun _ => hraise.bind fun _ =>
    hprice.bind fun price => hraise.bind fun _ => hraise.bind fun _ =>
      (hcollar price).bind fun _ => spares_ok _

end Checks

/-! ## 3. The programs behind the gates -/

/-- A read or write whose answer the program goes on with. -/
theorem raises_op {o : Op} : (perform o).Raises NoRefusal := Prog.raises_perform

theorem raises_check {α : Type} {x : Except Exc α} (h : Spares x) :
    (Prog.ofExcept x : Program α).Raises NoRefusal := Prog.raises_ofExcept h

variable [PyStr] [NumericColumn]

section Ledger

omit [PyStr] [NumericColumn] in
theorem raises_mark (id : String) (record : OrderRecord) : (mark id record).Raises NoRefusal := by
  refine raises_op.bind fun found => ?_
  split
  · trivial
  · exact noRefusal_lookupError _

omit [PyStr] [NumericColumn] in
theorem spares_assertSameIntent (record : OrderRecord) (intent : OrderIntent) :
    Spares (assertSameIntent record intent) := by
  simp only [assertSameIntent]
  split
  · exact spares_error (noRefusal_valueError _)
  · exact spares_ok ()

omit [PyStr] [NumericColumn] in
theorem raises_reconcileExisting (id : String) (expected : Option OrderIntent) :
    (reconcileExisting id expected).Raises NoRefusal := by
  refine (raises_op.bind fun _ => Prog.raises_pure _).bind fun current => ?_
  cases current with
  | none => exact Prog.raises_pure _
  | some current =>
    refine (raises_check ?_).bind fun _ => ?_
    · cases expected with
      | none => exact spares_ok ()
      | some intent => exact spares_assertSameIntent _ _
    split
    · trivial
    refine (raises_op.bind fun remote => ?_).bind fun _ => trivial
    cases remote with
    | none => exact (raises_mark _ _).bind fun _ => trivial
    | some remote => exact (raises_mark _ _).bind fun _ => trivial

omit [PyStr] [NumericColumn] in
theorem raises_reserveBeforeSideEffect (intent : OrderIntent) :
    (reserveBeforeSideEffect intent).Raises NoRefusal := by
  have hexisting : ∀ row, (existingRecord row intent).Raises NoRefusal := fun row =>
    (raises_check (spares_assertSameIntent _ _)).bind fun _ => trivial
  refine raises_op.bind fun existing => ?_
  cases existing with
  | some row => exact hexisting row
  | none =>
    refine raises_op.attempt_bind fun inserted hinserted => ?_
    rcases inserted with e | u
    · cases e with
      | integrityError =>
        refine raises_op.bind fun existing => ?_
        cases existing with
        | some row => exact hexisting row
        | none => exact ⟨nofun, nofun⟩
      | _ => exact hinserted _ rfl
    · refine raises_op.bind fun row => ?_
      cases row with
      | some row => trivial
      | none => exact ⟨nofun, nofun⟩

end Ledger

namespace ExecutionService

variable (self : ExecutionService) (a : SubmitArgs)

omit [NumericColumn] in
theorem raises_checkPretrade : (checkPretrade a).Raises NoRefusal := by
  unfold checkPretrade
  cases a.pretradeLimits with
  | none =>
    cases a.pretradeContext with
    | none => trivial
    | some ctx => exact noRefusal_valueError _
  | some limits =>
    cases a.pretradeContext with
    | none => exact noRefusal_valueError _
    | some ctx =>
      exact raises_op.bind fun now =>
        (raises_check (spares_requirePretrade _ _ _ _)).bind fun _ => trivial

omit [NumericColumn] in
theorem raises_checkSpotSell : (checkSpotSell a).Raises NoRefusal := by
  unfold checkSpotSell
  split
  · exact raises_check (spares_validateSpotSellBalance _ _)
  · trivial

omit [PyStr] [NumericColumn] in
theorem raises_checkLeader : (checkLeader self a).Raises NoRefusal := by
  unfold checkLeader
  split
  · exact (by decide : NoRefusal (.permissionError "invalid LIVE leader fencing token"))
  · refine raises_op.bind fun valid => ?_
    split
    · exact (by decide : NoRefusal (.permissionError "invalid LIVE leader fencing token"))
    · exact Prog.raises_pure _

omit [PyStr] [NumericColumn] in
/-- A refused balance restricts the risk state and is raised again as it is. -/
theorem raises_checkLiveBalance : (checkLiveBalance a).Raises NoRefusal := by
  unfold checkLiveBalance
  refine .tryCatch (raises_op.bind fun _ => raises_op) fun e he => ?_
  cases e with
  | permissionError msg => exact raises_op.bind fun _ => he
  | _ => exact he

omit [PyStr] [NumericColumn] in
theorem raises_checkReservations : (checkReservations self a).Raises NoRefusal := by
  unfold checkReservations
  cases self.reservations with
  | none => exact Prog.raises_pure _
  | some validates =>
    refine .bind ?_ fun _ => ?_
    · refine raises_op.bind fun reserved => ?_
      split
      · exact (by decide : NoRefusal (.permissionError "missing capital reservation"))
      · exact Prog.raises_pure _
    · split
      · exact raises_checkLiveBalance a
      · exact Prog.raises_pure _

omit [PyStr] [NumericColumn] in
theorem raises_checkLive : (checkLive self a).Raises NoRefusal := by
  unfold checkLive
  split
  · exact (raises_checkLeader self a).bind fun _ => raises_checkReservations self a
  · exact Prog.raises_pure _

omit [NumericColumn] in
theorem raises_normalizeRevalidated : (normalizeRevalidated a).Raises NoRefusal := by
  refine raises_op.bind fun filters => raises_op.bind fun capabilities =>
    (raises_check (spares_normalizeAndValidate _ _ _ _ _)).bind fun normalized =>
    raises_op.bind fun currentFilters => raises_op.bind fun currentCapabilities => ?_
  split
  · refine raises_op.bind fun _ => ?_
    exact (by decide : NoRefusal
      (.permissionError "symbol metadata changed before submit; revalidation required"))
  · exact Prog.raises_pure _

omit [PyStr] [NumericColumn] in
theorem raises_markDurable (record : OrderRecord) :
    (markDurable self a record).Raises NoRefusal := by
  unfold markDurable
  split
  · exact raises_mark _ _
  · exact Prog.raises_pure _

omit [PyStr] [NumericColumn] in
theorem raises_sideEffect (normalized : OrderIntent) (record : OrderRecord) :
    (sideEffect self a normalized record).Raises NoRefusal := by
  have hfence : (checkFence self a).Raises NoRefusal := by
    unfold checkFence
    split
    · exact raises_op
    · exact Prog.raises_pure _
  have hisolate : (isolate self a).Raises NoRefusal := by
    unfold isolate
    split <;> exact raises_op
  have hambiguous : (handleAmbiguous self a record).Raises NoRefusal :=
    raises_op.bind fun _ => (raises_markDurable self a _).bind fun _ =>
      hisolate.bind fun _ => Prog.raises_pure _
  refine raises_op.bind fun _ => .tryCatch ?_ fun e he => ?_
  · exact hfence.bind fun _ => raises_op.bind fun _ => raises_op.bind fun _ =>
      (raises_markDurable self a _).bind fun _ => Prog.raises_pure _
  · cases e with
    | ambiguousExecution | timeoutError => exact hambiguous
    | _ => exact he

omit [NumericColumn] in
/-- **Nothing behind the gates raises one of their refusals.** -/
theorem raises_submitAdmitted : (submitAdmitted self a).Raises NoRefusal := by
  have hadopt : ∀ record, (adopt self a record).Raises NoRefusal := fun record =>
    raises_op.bind fun _ => Prog.raises_pure _
  have hlost : ∀ normalized, (lostInsert self a normalized).Raises NoRefusal := by
    refine fun normalized => (raises_reconcileExisting _ _).bind fun resolved => ?_
    cases resolved with
    | some resolved => exact hadopt resolved
    | none => exact noRefusal_lookupError _
  have hfresh : (submitFresh self a).Raises NoRefusal := by
    refine (raises_normalizeRevalidated a).bind fun normalized => ?_
    split
    · refine (raises_reserveBeforeSideEffect _).bind fun ⟨durable, created⟩ => ?_
      cases created with
      | true => exact raises_sideEffect self a _ _
      | false => exact hlost normalized
    · exact raises_sideEffect self a _ _
  refine raises_op.bind fun cached => ?_
  cases cached with
  | some record => exact Prog.raises_pure _
  | none =>
    simp only [submitUncached]
    split
    · refine (raises_reconcileExisting _ _).bind fun existing => ?_
      cases existing with
      | some existing => exact hadopt existing
      | none => exact hfresh
    · exact hfresh

omit [NumericColumn] in
/-- Nor does a guard behind the gates. -/
theorem raises_laterGuards :
    (do
      Prog.ofExcept (validateReduceOnly a.intent a.currentPositionQty)
      checkPretrade a
      checkSpotSell a
      checkLive self a : Program Unit).Raises NoRefusal :=
  (raises_check (spares_validateReduceOnly _ _)).bind fun _ => (raises_checkPretrade a).bind
    fun _ => (raises_checkSpotSell a).bind fun _ => raises_checkLive self a

/-! ## 4. The gates -/

variable {ε : Type} {Ex : Exchange ε} {m : RiskMachine} {self a} {w : World ε}

/-- `allow_new_risk` answers for the machine, and no collaborator raises a text of the gates. -/
def Answers (m : RiskMachine) : (o : Op) → World ε → execSig.Ans o → Prop
  | .allowNewRisk, _, r => r = .ok m.allowNewRisk
  | _, _, r => ∀ e, r = .error e → NoRefusal e

/-- The operations, with `m` as the service's risk machine. -/
def gated (Ex : Exchange ε) (m : RiskMachine) : Handler execSig (World ε) :=
  (handler Ex).meeting (Answers m)

theorem gated_spares {o : Op} {w w' : World ε} {r : execSig.Ans o} (h : gated Ex m o w r w')
    (e : Exc) (hr : r = .error e) : NoRefusal e := by
  cases o with
  | allowNewRisk =>
    have hok : r = .ok m.allowNewRisk := h.2
    rw [hok] at hr
    exact nomatch hr
  | _ => exact h.2 e hr

/-- The symbol of the order is isolated in the service's registry. -/
def Blocked (self : ExecutionService) (a : SubmitArgs) (w : World ε) : Prop :=
  ∃ iso ∈ self.symbolIsolation,
    (w.blocked iso (a.intent.accountId, PyStr.upper a.intent.symbol)).isSome = true

/-- What the gates do with an order. -/
def RefusedAs (self : ExecutionService) (a : SubmitArgs) (m : RiskMachine) (w : World ε)
    (r : Except Exc OrderRecord) : Prop :=
  (r = .error symbolRefusal → a.intent.reduceOnly = false ∧ Blocked self a w) ∧
  (r = .error riskRefusal →
    a.intent.reduceOnly = false ∧ ¬Blocked self a w ∧ m.allowNewRisk = false)

omit [NumericColumn] in
theorem refusedAs_of_spares {r : Except Exc OrderRecord} (h : ∀ e, r = .error e → NoRefusal e) :
    RefusedAs self a m w r :=
  ⟨fun hr => absurd rfl (h _ hr).1, fun hr => absurd rfl (h _ hr).2⟩

theorem wp_checkIsolation {Q : Except Exc Unit → World ε → Prop}
    (hblocked : Blocked self a w → a.intent.reduceOnly = false → Q (.error symbolRefusal) w)
    (hopen : ¬Blocked self a w ∨ a.intent.reduceOnly = true → Q (.ok ()) w) :
    wp (gated Ex m) .free () (checkIsolation self a) Q w := by
  unfold checkIsolation
  cases hiso : self.symbolIsolation with
  | none =>
    refine hopen (.inl ?_)
    rintro ⟨iso, hmem, -⟩
    rw [hiso] at hmem
    exact nomatch hmem
  | some iso =>
    have hiff : Blocked self a w ↔
        (w.blocked iso (a.intent.accountId, PyStr.upper a.intent.symbol)).isSome = true := by
      simp [Blocked, hiso]
    refine wp_bind.mpr (wp_free_perform.mpr ?_)
    rintro r w' ⟨⟨rfl, rfl⟩, -⟩
    rw [onOk_ok]
    split
    · rename_i h
      simp only [Bool.and_eq_true, Bool.not_eq_true'] at h
      exact hblocked (hiff.mpr h.1) h.2
    · rename_i h
      refine hopen ?_
      simp only [Bool.and_eq_true, Bool.not_eq_true', not_and, Bool.not_eq_false] at h
      exact or_iff_not_imp_left.mpr fun hb => h (hiff.mp (not_not.mp hb))

theorem wp_checkRisk {Q : Except Exc Unit → World ε → Prop}
    (hrefused : m.allowNewRisk = false → a.intent.reduceOnly = false → Q (.error riskRefusal) w)
    (hopen : m.allowNewRisk = true ∨ a.intent.reduceOnly = true → Q (.ok ()) w) :
    wp (gated Ex m) .free () (checkRisk a) Q w := by
  refine wp_bind.mpr (wp_free_perform.mpr ?_)
  rintro r w' ⟨rfl, hr⟩
  obtain rfl : r = .ok m.allowNewRisk := hr
  rw [onOk_ok]
  split
  · rename_i h
    simp only [Bool.and_eq_true, Bool.not_eq_true'] at h
    exact hrefused h.1 h.2
  · rename_i h
    refine hopen ?_
    simp only [Bool.and_eq_true, Bool.not_eq_true', not_and, Bool.not_eq_false] at h
    exact or_iff_not_imp_left.mpr fun ha => h (Bool.eq_false_iff.mpr ha)

/-- **A refusal that comes back from `submit` is the gate's.** -/
theorem wp_submit_refusedAs :
    wp (gated Ex m) .free () (submit self a) (fun r _ => RefusedAs self a m w r) w := by
  refine wp_bind.mpr (wp_free_perform.mpr ?_)
  rintro (e | u) w₁ hacquire
  · exact refusedAs_of_spares fun e' he' => gated_spares hacquire e' (by cases he'; rfl)
  have hsame : Blocked self a w₁ ↔ Blocked self a w := by
    rcases hacquire.1 with ⟨-, -, rfl⟩ | ⟨e, hr, -⟩
    · exact Iff.rfl
    · cases hr
  have hbody : wp (gated Ex m) .free () (do guards self a; submitAdmitted self a)
      (fun r _ => RefusedAs self a m w r) w₁ := by
    refine wp_bind.mpr (wp_bind.mpr (wp_checkIsolation (fun hb hr => ?_) fun hopen => ?_))
    · exact ⟨fun _ => ⟨hr, hsame.mp hb⟩, nofun⟩
    rw [onOk_ok]
    refine wp_bind.mpr (wp_checkRisk (fun hm hr => ?_) fun _ => ?_)
    · refine ⟨nofun, fun _ => ⟨hr, ?_, hm⟩⟩
      refine fun hb => hopen.elim (fun h => h (hsame.mpr hb)) fun h => ?_
      rw [hr] at h
      exact nomatch h
    rw [onOk_ok]
    refine wp_mono (fun r w' hr => ?_)
      (wp_free_raises (fun _ _ _ _ h => gated_spares h) (raises_laterGuards self a))
    cases r with
    | error e => exact refusedAs_of_spares fun e' he' => hr e' (by cases he'; rfl)
    | ok u =>
      refine wp_mono (fun r w' hr => refusedAs_of_spares hr)
        (wp_free_raises (fun _ _ _ _ h => gated_spares h) (raises_submitAdmitted self a))
  refine wp_finally.mpr (wp_mono (fun r w₂ hr => wp_free_perform.mpr ?_) hbody)
  rintro r' w₃ ⟨⟨rfl, -⟩, -⟩
  exact hr

/-- The account lock is free. -/
def LockFree (self : ExecutionService) (a : SubmitArgs) (w : World ε) : Prop :=
  w.held self.accountLocks a.intent.accountId = false

/-- What a gate raises, `submit` raises. -/
theorem may_submit_of_gates {e : Exc} (hfree : LockFree self a w)
    (h : may (gated Ex m) (do checkIsolation self a; checkRisk a) (fun r _ => r = .error e)
      (w.setHeld self.accountLocks a.intent.accountId true)) :
    may (gated Ex m) (submit self a) (fun r _ => r = .error e) w := by
  refine may_bind.mpr (may_perform.mpr ⟨.ok (), _, ⟨.inl ⟨hfree, rfl, rfl⟩, nofun⟩, ?_⟩)
  refine may_finally.mpr (may_bind.mpr (may_bind.mpr ?_))
  refine may_mono (fun r w₁ hr => ?_) (may_bind.mp h)
  cases r with
  | error e' =>
    obtain rfl : e' = e := Except.error.inj hr
    exact may_perform.mpr ⟨.ok (), _, ⟨⟨rfl, rfl⟩, nofun⟩, rfl⟩
  | ok u =>
    refine may_bind.mpr (may_mono (fun r w₂ hr => ?_) hr)
    obtain rfl : r = .error e := hr
    exact may_perform.mpr ⟨.ok (), _, ⟨⟨rfl, rfl⟩, nofun⟩, rfl⟩

theorem may_checkIsolation_refused (hblocked : Blocked self a w)
    (hreduce : a.intent.reduceOnly = false) :
    may (gated Ex m) (checkIsolation self a) (fun r _ => r = .error symbolRefusal) w := by
  obtain ⟨iso, hiso, hw⟩ := hblocked
  unfold checkIsolation
  rw [hiso]
  refine may_bind.mpr (may_perform.mpr ⟨.ok _, w, ⟨⟨rfl, rfl⟩, nofun⟩, ?_⟩)
  rw [onOk_ok, hw, hreduce]
  exact rfl

theorem may_checkIsolation_passed (hblocked : ¬Blocked self a w) :
    may (gated Ex m) (checkIsolation self a) (fun r w' => r = .ok () ∧ w' = w) w := by
  unfold checkIsolation
  cases hiso : self.symbolIsolation with
  | none => exact ⟨rfl, rfl⟩
  | some iso =>
    have hnone : (w.blocked iso (a.intent.accountId, PyStr.upper a.intent.symbol)).isSome =
        false := Bool.eq_false_iff.mpr fun h => hblocked ⟨iso, hiso, h⟩
    refine may_bind.mpr (may_perform.mpr ⟨.ok _, w, ⟨⟨rfl, rfl⟩, nofun⟩, ?_⟩)
    rw [onOk_ok, hnone]
    exact ⟨rfl, rfl⟩

/-- **The orders the isolation gate refuses.** -/
theorem symbol_refused_iff (hfree : LockFree self a w) :
    (∃ w', Runs (gated Ex m) (submit self a) w (.error symbolRefusal) w') ↔
      a.intent.reduceOnly = false ∧ Blocked self a w := by
  constructor
  · rintro ⟨w', hrun⟩
    exact (hrun.of_wp wp_submit_refusedAs).1 rfl
  · rintro ⟨hreduce, hblocked⟩
    have hmay : may (gated Ex m) (submit self a) (fun r _ => r = .error symbolRefusal) w := by
      refine may_submit_of_gates hfree (may_bind.mpr (may_mono ?_
        (may_checkIsolation_refused (w := w.setHeld _ _ true) hblocked hreduce)))
      rintro r w₁ rfl
      rfl
    obtain ⟨r, w', hrun, rfl⟩ := may_iff.mp hmay
    exact ⟨w', hrun⟩

/-- **The orders the risk gate refuses.** -/
theorem risk_refused_iff (hfree : LockFree self a w) :
    (∃ w', Runs (gated Ex m) (submit self a) w (.error riskRefusal) w') ↔
      a.intent.reduceOnly = false ∧ ¬Blocked self a w ∧ m.allowNewRisk = false := by
  constructor
  · rintro ⟨w', hrun⟩
    exact (hrun.of_wp wp_submit_refusedAs).2 rfl
  · rintro ⟨hreduce, hblocked, hm⟩
    have hmay : may (gated Ex m) (submit self a) (fun r _ => r = .error riskRefusal) w := by
      refine may_submit_of_gates hfree (may_bind.mpr (may_mono ?_
        (may_checkIsolation_passed (w := w.setHeld _ _ true) hblocked)))
      rintro r w₁ ⟨rfl, rfl⟩
      refine may_bind.mpr (may_perform.mpr ⟨.ok m.allowNewRisk, _, ⟨rfl, rfl⟩, ?_⟩)
      rw [onOk_ok, hm, hreduce]
      exact rfl
    obtain ⟨r, w', hrun, rfl⟩ := may_iff.mp hmay
    exact ⟨w', hrun⟩

end ExecutionService

end Kripto.Execution
