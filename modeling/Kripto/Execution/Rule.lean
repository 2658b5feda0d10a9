/-
# Proof rules for the execution path

The walk through `submit` is the same whatever is proved about it: lock, guards, cache, ledger,
normalization, reservation, side effect, unlock.  These rules make it once.  Each asks for the
parts at which a property can be decided and passes over the rest.

The rules hold for every handler of the operations and every protocol, so they serve the
concurrent results (auxiliary variables included) and the sequential ones alike.
-/
import Kripto.Execution.Service

namespace Kripto.Execution

open Effect PersistentIntentLedger ExecutionService

variable [PyStr] {σ ι : Type} {H : Handler execSig σ} {D : Protocol ι σ} {t : ι} {s : σ}

/-! ## 1. The ledger -/

section Ledger

omit [PyStr]

theorem wp_mark_of {id : String} {record : OrderRecord} {Q : Except Exc Unit → σ → Prop}
    (hupdate : wp H D t (perform (.updateOrder id record))
      (onOk (fun found s => if found then Q (.ok ()) s
        else Q (.error (.lookupError ("unknown durable intent " ++ id))) s) Q) s) :
    wp H D t (mark id record) Q s := by
  refine wp_bind.mpr (wp_mono ?_ hupdate)
  rintro (e | found) s₁ h
  · exact h
  · cases found with
    | true => exact h
    | false => exact h

/-- **Reservation.**  `O` is what a committed insert gives, and `R` what the re-read tells of the
row it finds. -/
theorem wp_reserve_row_of {n : OrderIntent} {P O : σ → Prop} {R : OrderRow → σ → Prop}
    (hselect : ∀ s, P s → wp H D t (perform (.selectOrder n.intentId)) (fun _ => P) s)
    (hinsert : ∀ s, P s → wp H D t (perform (.insertOrder (newRow n)))
      (fun r s => match r with
        | .ok _ => O s
        | .error _ => P s) s)
    (hrefresh : ∀ s, O s → wp H D t (perform (.refreshOrder n.intentId))
      (fun r s => O s ∧ ∀ row, r = .ok (some row) → R row s) s)
    (hs : P s) :
    wp H D t (reserveBeforeSideEffect n) (fun r s => match r with
      | .ok (record, true) => ∃ row, record = toRecord row ∧ R row s
      | .ok (_, false) => P s
      | .error _ => P s ∨ O s) s := by
  have hexisting : ∀ row s, P s → wp H D t (existingRecord row n) (fun r s => match r with
      | .ok (record, true) => ∃ row, record = toRecord row ∧ R row s
      | .ok (_, false) => P s
      | .error _ => P s ∨ O s) s := by
    intro row s hP
    refine wp_bind.mpr (wp_ofExcept.mpr ?_)
    cases assertSameIntent (toRecord row) n with
    | ok u => exact hP
    | error e => exact Or.inl hP
  refine wp_bind.mpr (wp_mono ?_ (hselect s hs))
  rintro (e | (_ | row)) s₁ hP
  · exact Or.inl hP
  · refine wp_bind.mpr (wp_attempt.mpr (wp_mono ?_ (hinsert s₁ hP)))
    rintro (e | u) s₂ hins
    · -- The insert failed: this call creates nothing.
      cases e with
      | integrityError =>
        refine wp_bind.mpr (wp_mono ?_ (hselect s₂ hins))
        rintro (e | (_ | row)) s₃ hP'
        · exact Or.inl hP'
        · exact Or.inl hP'
        · exact hexisting row s₃ hP'
      | _ => exact Or.inl hins
    · refine wp_bind.mpr (wp_mono ?_ (hrefresh s₂ hins))
      rintro (e | (_ | row)) s₃ ⟨hO, hrow⟩
      · exact Or.inr hO
      · exact Or.inr hO
      · exact ⟨row, rfl, hrow row rfl⟩
  · exact hexisting row s₁ hP

/-- The same when nothing is asked of the row. -/
theorem wp_reserve_of {n : OrderIntent} {P O : σ → Prop}
    (hselect : ∀ s, P s → wp H D t (perform (.selectOrder n.intentId)) (fun _ => P) s)
    (hinsert : ∀ s, P s → wp H D t (perform (.insertOrder (newRow n)))
      (fun r s => match r with
        | .ok _ => O s
        | .error _ => P s) s)
    (hrefresh : ∀ s, O s → wp H D t (perform (.refreshOrder n.intentId)) (fun _ => O) s)
    (hs : P s) :
    wp H D t (reserveBeforeSideEffect n) (fun r s => match r with
      | .ok (_, true) => O s
      | .ok (_, false) => P s
      | .error _ => P s ∨ O s) s := by
  refine wp_mono ?_ (wp_reserve_row_of (R := fun _ => O) hselect hinsert
    (fun s hO => wp_mono (fun r s h => ⟨h, fun _ _ => h⟩) (hrefresh s hO)) hs)
  rintro (e | ⟨record, _ | _⟩) s₁ h
  · exact h
  · exact h
  · obtain ⟨row, -, hO⟩ := h
    exact hO

/-- **Reconciliation.**  `F` is what the look-up tells of the row it finds.  A row in another
state than SUBMITTED and UNKNOWN is returned as it is; for the others the exchange is asked. -/
theorem wp_reconcile_of {id : String} {expected : Option OrderIntent}
    {F : OrderRow → σ → Prop} {Q : Except Exc (Option OrderRecord) → σ → Prop}
    (hselect : wp H D t (perform (.selectOrder id)) (onOk (fun found s => match found with
      | some row => F row s
      | none => Q (.ok none) s) Q) s)
    (hcollision : ∀ row e s, F row s → assertExpected (toRecord row) expected = .error e →
      Q (.error e) s)
    (hsettled : ∀ row s, F row s → assertExpected (toRecord row) expected = .ok () →
      row.status ≠ .SUBMITTED → row.status ≠ .UNKNOWN → Q (.ok (some (toRecord row))) s)
    (hresolve : ∀ row s, F row s → assertExpected (toRecord row) expected = .ok () →
      row.status = .SUBMITTED ∨ row.status = .UNKNOWN →
      wp H D t (resolve id (toRecord row)) (fun r s => Q (r.map some) s) s) :
    wp H D t (reconcileExisting id expected) Q s := by
  refine wp_bind.mpr (wp_bind.mpr (wp_mono ?_ hselect))
  rintro (e | (_ | row)) s₁ h
  · exact h
  · exact h
  · refine wp_bind.mpr (wp_ofExcept.mpr ?_)
    cases hexp : assertExpected (toRecord row) expected with
    | error e => exact hcollision row e s₁ h hexp
    | ok u =>
      rw [onOk_ok]
      by_cases hstate : (toRecord row).state ≠ .SUBMITTED ∧ (toRecord row).state ≠ .UNKNOWN
      · rw [if_pos hstate]
        exact hsettled row s₁ h hexp hstate.1 hstate.2
      · rw [if_neg hstate]
        have hopen : row.status = .SUBMITTED ∨ row.status = .UNKNOWN := by
          by_contra hnot
          exact hstate (not_or.mp hnot)
        refine wp_bind.mpr (wp_mono ?_ (hresolve row s₁ h hexp hopen))
        rintro (e | record) s₂ hQ
        · exact hQ
        · exact hQ

/-- Asking the exchange: its record is marked and returned, and without one the row becomes
UNKNOWN. -/
theorem wp_resolve_of {id : String} {current : OrderRecord}
    {Q : Except Exc OrderRecord → σ → Prop}
    (hget : wp H D t
      (perform (.getOrder id ⟨current.symbol, current.exchangeOrderId, current.clientOrderId⟩))
      (onOk (fun remote s =>
        wp H D t (mark id (remote.getD { current with state := .UNKNOWN }))
          (onOk (fun _ => Q (.ok (remote.getD { current with state := .UNKNOWN }))) Q) s) Q) s) :
    wp H D t (resolve id current) Q s := by
  refine wp_bind.mpr (wp_mono ?_ hget)
  rintro (e | (_ | remote)) s₁ h
  · exact h
  · exact wp_bind.mpr h
  · exact wp_bind.mpr h

end Ledger

/-! ## 2. The side effect -/

section SideEffect

omit [PyStr]

variable {self : ExecutionService} {a : SubmitArgs} {n : OrderIntent} {record : OrderRecord}

/-- **The side effect.**  `E e` is what holds when the fence, the exchange or the recording of
its answer has raised `e`. -/
theorem wp_sideEffect_of {P : σ → Prop} {R : OrderRecord → σ → Prop} {E : Exc → σ → Prop}
    {Q : Except Exc OrderRecord → σ → Prop}
    (hset : wp H D t (perform (.setRecord self.id a.intent.intentId record))
      (onOk (fun _ => P) Q) s)
    (hfence : ∀ s, P s → wp H D t (checkFence self a)
      (fun r s => match r with
        | .ok _ => P s
        | .error e => E e s) s)
    (hsubmit : ∀ s, P s → wp H D t (perform (.submitOrder n))
      (fun r s => match r with
        | .ok actual => R actual s
        | .error e => E e s) s)
    (hanswer : ∀ actual s, R actual s →
      wp H D t (perform (.setRecord self.id a.intent.intentId actual))
        (fun r s => match r with
          | .ok _ => wp H D t (markDurable self a actual)
              (fun r s => match r with
                | .ok _ => Q (.ok actual) s
                | .error e => E e s) s
          | .error e => E e s) s)
    (hambiguous : ∀ e s, E e s → Ambiguous e → wp H D t (handleAmbiguous self a record) Q s)
    (hraise : ∀ e s, E e s → ¬Ambiguous e → Q (.error e) s) :
    wp H D t (sideEffect self a n record) Q s := by
  have hsend : ∀ s, P s → wp H D t (send self a n) (onError E Q) s := by
    intro s hP
    refine wp_bind.mpr (wp_mono ?_ (hfence s hP))
    rintro (e | u) s₁ h₁
    · exact h₁
    refine wp_bind.mpr (wp_mono ?_ (hsubmit s₁ h₁))
    rintro (e | actual) s₂ h₂
    · exact h₂
    refine wp_bind.mpr (wp_mono ?_ (hanswer actual s₂ h₂))
    rintro (e | u) s₃ h₃
    · exact h₃
    refine wp_bind.mpr (wp_mono ?_ h₃)
    rintro (e | u) s₄ h₄
    · exact h₄
    · exact h₄
  refine wp_bind.mpr (wp_mono ?_ hset)
  rintro (e | u) s₁ h₁
  · exact h₁
  refine wp_tryCatch.mpr (wp_mono ?_ (hsend s₁ h₁))
  rintro (e | actual) s₂ h₂
  · rw [onError_error] at h₂ ⊢
    by_cases hamb : Ambiguous e
    · rw [onAmbiguous_of_ambiguous self a hamb]
      exact hambiguous e s₂ h₂ hamb
    · rw [onAmbiguous_of_not_ambiguous self a hamb]
      exact hraise e s₂ h₂ hamb
  · exact h₂

/-- The handler's own steps. -/
theorem wp_handleAmbiguous_of {Q : Except Exc OrderRecord → σ → Prop}
    (hset : wp H D t (perform (.setRecord self.id a.intent.intentId
        { record with state := .UNKNOWN }))
      (onOk (fun _ => wp H D t (markDurable self a { record with state := .UNKNOWN })
        (onOk (fun _ => wp H D t (isolate self a)
          (onOk (fun _ => Q (.ok { record with state := .UNKNOWN })) Q)) Q)) Q) s) :
    wp H D t (handleAmbiguous self a record) Q s := by
  refine wp_bind.mpr (wp_mono ?_ hset)
  rintro (e | u) s₁ h₁
  · exact h₁
  refine wp_bind.mpr (wp_mono ?_ h₁)
  rintro (e | u) s₂ h₂
  · exact h₂
  exact wp_bind.mpr h₂

end SideEffect

/-! ## 3. `submit` -/

variable {self : ExecutionService} {a : SubmitArgs}

/-- **Behind the guards.**  `N` is what is known of the normalized order. -/
theorem wp_submitAdmitted_of {P : σ → Prop} {N : OrderIntent → Prop}
    {Q : Except Exc OrderRecord → σ → Prop}
    (herror : ∀ e s, P s → Q (.error e) s)
    (hcached : ∀ s, P s → wp H D t (perform (.getRecord self.id a.intent.intentId))
      (fun r s => match r with
        | .ok (some record) => Q (.ok record) s
        | _ => P s) s)
    (hledger : ∀ s, P s → self.persistentIntents = true →
      wp H D t (reconcileExisting a.intent.intentId (some a.intent))
        (onOk (fun existing s => match existing with
          | some existing => wp H D t (adopt self a existing) Q s
          | none => P s) Q) s)
    (hnormalize : ∀ s, P s → wp H D t (normalizeRevalidated a)
      (fun r s => P s ∧ ∀ n, r = .ok n → N n) s)
    (hfresh : ∀ n s, P s → N n → wp H D t (if self.persistentIntents
        then reserveAndSend self a n else sideEffect self a n (recordOf n)) Q s)
    (hs : P s) : wp H D t (submitAdmitted self a) Q s := by
  have hnew : ∀ s, P s → wp H D t (submitFresh self a) Q s := by
    intro s hP
    refine wp_bind.mpr (wp_mono ?_ (hnormalize s hP))
    rintro (e | n) s₁ ⟨hP₁, hn⟩
    · exact herror e s₁ hP₁
    · exact hfresh n s₁ hP₁ (hn n rfl)
  have huncached : ∀ s, P s → wp H D t (submitUncached self a) Q s := by
    intro s hP
    unfold submitUncached
    split
    · rename_i hself
      refine wp_bind.mpr (wp_mono ?_ (hledger s hP hself))
      rintro (e | (_ | existing)) s₁ h₁
      · exact h₁
      · exact hnew s₁ h₁
      · exact h₁
    · exact hnew s hP
  refine wp_bind.mpr (wp_mono ?_ (hcached s hs))
  rintro (e | (_ | record)) s₁ h₁
  · exact herror e s₁ h₁
  · exact huncached s₁ h₁
  · exact h₁

/-- **`submit`.**  `P` is what holds while nothing but reading has happened, `G` what the guards
establish, `Q` what is wanted at the end, also after the unlocking. -/
theorem wp_submit_guarded {P G : σ → Prop} {Q : Except Exc OrderRecord → σ → Prop}
    (hguards : ∀ s, P s → wp H D t (guards self a)
      (fun r s => match r with
        | .ok _ => G s
        | .error _ => P s) s)
    (hacquire : wp H D t (perform (.acquire self.accountLocks a.intent.accountId))
      (fun _ => P) s)
    (hrelease : ∀ r s, Q r s → wp H D t
      (perform (.release self.accountLocks a.intent.accountId)) (onOk (fun _ => Q r) Q) s)
    (herror : ∀ e s, P s → Q (.error e) s)
    (hadmitted : ∀ s, G s → wp H D t (submitAdmitted self a) Q s) :
    wp H D t (self.submit a) Q s := by
  have hbody : ∀ s, P s → wp H D t (do guards self a; submitAdmitted self a) Q s := by
    intro s hP
    refine wp_bind.mpr (wp_mono ?_ (hguards s hP))
    rintro (e | u) s₁ h₁
    · exact herror e s₁ h₁
    · exact hadmitted s₁ h₁
  refine wp_bind.mpr (wp_mono ?_ hacquire)
  rintro (e | u) s₁ h₁
  · exact herror e s₁ h₁
  refine wp_finally.mpr (wp_mono ?_ (hbody s₁ h₁))
  exact fun r s₂ h₂ => hrelease r s₂ h₂

/-- The same when the guards establish nothing of interest. -/
theorem wp_submit_around {P : σ → Prop} {Q : Except Exc OrderRecord → σ → Prop}
    (hguards : ∀ s, P s → wp H D t (guards self a) (fun _ => P) s)
    (hacquire : wp H D t (perform (.acquire self.accountLocks a.intent.accountId))
      (fun _ => P) s)
    (hrelease : ∀ r s, Q r s → wp H D t
      (perform (.release self.accountLocks a.intent.accountId)) (onOk (fun _ => Q r) Q) s)
    (herror : ∀ e s, P s → Q (.error e) s)
    (hadmitted : ∀ s, P s → wp H D t (submitAdmitted self a) Q s) :
    wp H D t (self.submit a) Q s := by
  refine wp_submit_guarded (P := P) (G := P) (fun s hP => wp_mono ?_ (hguards s hP))
    hacquire hrelease herror hadmitted
  rintro (e | u) s₁ h₁ <;> exact h₁

/-- Both in one, for facts no reading touches. -/
theorem wp_submit_of {P : σ → Prop} {Q : Except Exc OrderRecord → σ → Prop}
    (hreads : ∀ {α : Type} {p : Program α} s, p.Within Op.Reads → P s → wp H D t p (fun _ => P) s)
    (hacquire : wp H D t (perform (.acquire self.accountLocks a.intent.accountId))
      (fun _ => P) s)
    (hrelease : ∀ r s, Q r s → wp H D t
      (perform (.release self.accountLocks a.intent.accountId)) (onOk (fun _ => Q r) Q) s)
    (herror : ∀ e s, P s → Q (.error e) s)
    (hcached : ∀ s, P s → wp H D t (perform (.getRecord self.id a.intent.intentId))
      (fun r s => P s ∧ ∀ record, r = .ok (some record) → Q (.ok record) s) s)
    (hledger : ∀ s, P s → self.persistentIntents = true →
      wp H D t (reconcileExisting a.intent.intentId (some a.intent))
        (onOk (fun existing s => match existing with
          | some existing => wp H D t (adopt self a existing) Q s
          | none => P s) Q) s)
    (hfresh : ∀ n s, P s → (∃ filters cap, normalizeAndValidate a.intent filters cap
        a.referencePrice a.maxDeviationBps = .ok n) →
      wp H D t (if self.persistentIntents then reserveAndSend self a n
        else sideEffect self a n (recordOf n)) Q s) :
    wp H D t (self.submit a) Q s := by
  have hguards : (guards self a).Within Op.Reads :=
    (within_guards self a).mono fun _ => Op.Asks.reads
  refine wp_submit_around (fun s => hreads s hguards) hacquire hrelease herror ?_
  refine fun s => wp_submitAdmitted_of herror (fun s hP => wp_mono ?_ (hcached s hP)) hledger
    (fun s hP => ?_) hfresh
  · rintro (e | (_ | record)) s₁ ⟨h₁, hrecord⟩
    · exact h₁
    · exact h₁
    · exact hrecord record rfl
  exact wp_returns (returns_normalizeRevalidated a)
    (hreads s (within_normalizeRevalidated a trivial trivial trivial) hP)

omit [PyStr] in
/-- A fresh order over a ledger: the reservation decides who sends. -/
theorem wp_reserveAndSend_of {n : OrderIntent} {P O : σ → Prop}
    {Q : Except Exc OrderRecord → σ → Prop}
    (hreserve : wp H D t (reserveBeforeSideEffect n) (fun r s => match r with
      | .ok (_, true) => O s
      | .ok (_, false) => P s
      | .error _ => P s ∨ O s) s)
    (herror : ∀ e s, P s ∨ O s → Q (.error e) s)
    (hcreated : ∀ record s, O s → wp H D t (sideEffect self a n record) Q s)
    (hlost : ∀ s, P s → wp H D t (lostInsert self a n) Q s) :
    wp H D t (reserveAndSend self a n) Q s := by
  refine wp_bind.mpr (wp_mono ?_ hreserve)
  rintro (e | ⟨record, _ | _⟩) s₁ h₁
  · exact herror e s₁ h₁
  · exact hlost s₁ h₁
  · exact hcreated record s₁ h₁

end Kripto.Execution
