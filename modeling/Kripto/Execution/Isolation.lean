/-
# Isolation of a symbol with unresolved execution

`ORDER_STATE_MACHINE.md`: an UNKNOWN order blocks its symbol for new exposure until the truth is
established.  The service does that in one place, the handler of an ambiguous exception.  Three
other paths return an UNKNOWN record as well: an exchange that answers UNKNOWN, a reconciliation
that finds nothing, and the cache.

* On those paths nothing is blocked, and the next order for the symbol is sent.
* Where the symbol is already blocked whenever one of them is taken, an UNKNOWN result does mean
  that the symbol stays refused until it is cleared.
-/
import Kripto.Execution.Script

namespace Kripto.Execution

open Effect PersistentIntentLedger
open ExecutionService hiding id

section Histories

variable {ε : Type} [PyStr]

/-! ## 1. The property and the condition -/

/-- The key under which a call's symbol is isolated. -/
def Call.key (k : Call) : String × String :=
  (k.args.intent.accountId, PyStr.upper k.args.intent.symbol)

def Isolated (iso : ℕ) (key : String × String) (w : World ε) : Prop :=
  (w.blocked iso key).isSome = true

/-- No entry of the history clears the key. -/
def NotCleared (iso : ℕ) (key : String × String)
    (tr : List (Event execSig OrderRecord Call Between)) : Prop :=
  ∀ account symbol, .idle (.clear iso account symbol) ∈ tr →
    (account, PyStr.upper symbol) ≠ key

/-- **UNKNOWN isolates.**  After a call has returned an UNKNOWN record, every later call for the
same account and symbol that is not reduce-only is refused and sends nothing, as long as the
key is not cleared. -/
def UnknownIsolates (Y : Session.System execSig (World ε) OrderRecord Call Between)
    (w₀ : World ε) : Prop :=
  ∀ tr₀ w k record w₁ iso, Session Y w₀ tr₀ w → Runs (Y.handler k) (Y.body k) w (.ok record) w₁ →
    record.state = .UNKNOWN → k.service.symbolIsolation = some iso →
    ∀ tr w₂ k' r w₃, Session Y w₁ tr w₂ → NotCleared iso k.key tr →
      k'.service.symbolIsolation = some iso → k'.key = k.key →
      k'.args.intent.reduceOnly = false → Runs (Y.handler k') (Y.body k') w₂ r w₃ →
      (∃ e, r = .error e) ∧ w₃.submitted = w₂.submitted

/-- The call's symbol is isolated, if its service isolates at all. -/
def Call.isolated (k : Call) (w : World ε) : Prop :=
  ∀ iso, k.service.symbolIsolation = some iso → Isolated iso k.key w

/-- **The condition**: whenever a call comes by UNKNOWN other than through an ambiguous
exception, its symbol is isolated already. -/
def UnknownWhileIsolated (k : Call) : (o : Op) → World ε → execSig.Ans o → Prop
  | .getRecord .., w, .ok (some record) => record.state = .UNKNOWN → k.isolated w
  | .submitOrder _, w, .ok record => record.state = .UNKNOWN → k.isolated w
  | .getOrder .., w, .ok (some record) => record.state = .UNKNOWN → k.isolated w
  | .getOrder .., w, .ok none => k.isolated w
  | _, _, _ => True

/-! ## 2. Isolation lasts -/

variable [NumericColumn]

/-- No operation clears an isolation. -/
theorem isolated_change {Ex : Exchange ε} {o : Op} {w w' : World ε} {iso : ℕ}
    {key : String × String} (h : Change Ex o w w') (hw : Isolated iso key w) :
    Isolated iso key w' := by
  cases h with
  | blocked _ iso' account symbol reason =>
    unfold Isolated
    rw [World.setBlocked_blocked]
    split
    · rfl
    · exact hw
  | _ => exact hw

/-- Nor does a restart, and of the changes between calls only its own `clear`. -/
theorem isolated_session {Ex : Exchange ε} {w w' : World ε} {iso : ℕ} {key : String × String}
    {tr : List (Event execSig OrderRecord Call Between)} (h : Session (sequential Ex) w tr w')
    (hclear : NotCleared iso key tr) (hw : Isolated iso key w) : Isolated iso key w' := by
  refine sequential_keeps (fun o w w' => isolated_change) (fun w service hw => hw) h ?_ hw
  intro l hl w₁ w₂ hw₁ hhap
  cases hhap with
  | restart service => exact hw₁
  | exchange venue => exact hw₁
  | clear iso' account symbol =>
    unfold Isolated
    rw [World.setBlocked_blocked, if_neg]
    · exact hw₁
    · rintro ⟨rfl, rfl⟩
      exact hclear account symbol hl rfl

/-! ## 3. A call that returns UNKNOWN leaves its symbol isolated -/

/-- The handler of a call under the condition. -/
abbrev isolatingHandler (Ex : Exchange ε) (k : Call) : Handler execSig (World ε) :=
  (handler Ex).meeting (UnknownWhileIsolated k)

variable {Ex : Exchange ε} {k : Call} {w : World ε}

/-- An UNKNOWN outcome comes with the isolation. -/
def UnknownMeans (k : Call) (r : Except Exc OrderRecord) (w : World ε) : Prop :=
  ∀ record, r = .ok record → record.state = .UNKNOWN → k.isolated w

theorem isolated_op {o : Op} {r : execSig.Ans o} {w w' : World ε} (hw : k.isolated w)
    (h : isolatingHandler Ex k o w r w') : k.isolated w' :=
  fun iso hiso => isolated_change (handler_change h.1) (hw iso hiso)

/-- Whatever follows, an isolation stays. -/
theorem wp_isolated {α : Type} {p : Program α} (hw : k.isolated w) :
    wp (isolatingHandler Ex k) .free () p (fun _ => k.isolated) w :=
  wp_free_keeps (fun _ _ _ _ hw h => isolated_op hw h) hw

theorem wp_anything {α : Type} {p : Program α} :
    wp (isolatingHandler Ex k) .free () p (fun _ _ => True) w :=
  wp_free_keeps (fun _ _ _ _ _ _ => trivial) trivial

/-- A fact of the form "if UNKNOWN then isolated" stays, too. -/
theorem wp_unknown {α : Type} {p : Program α} (st : OrderState)
    (hw : st = .UNKNOWN → k.isolated w) :
    wp (isolatingHandler Ex k) .free () p (fun _ w => st = .UNKNOWN → k.isolated w) w :=
  wp_free_keeps (P := fun w => st = .UNKNOWN → k.isolated w)
    (fun _ _ _ _ hw h hst => isolated_op (hw hst) h) hw

theorem wp_isolatingReconcile (id : String) (expected : Option OrderIntent) :
    wp (isolatingHandler Ex k) .free () (reconcileExisting id expected)
      (fun r w => ∀ record, r = .ok (some record) → record.state = .UNKNOWN → k.isolated w)
      w := by
  refine wp_reconcile_of (F := fun _ _ => True) ?_ ?_ ?_ ?_
  · refine wp_mono ?_ wp_anything
    rintro (e | (_ | row)) w₁ -
    · intro record hr
      cases hr
    · intro record hr
      cases hr
    · trivial
  · intro row e w₁ _ _ record hr
    cases hr
  · rintro row w₁ - - - hne record ⟨rfl⟩ hunknown
    exact absurd hunknown hne
  · intro row w₁ _ _ _
    refine wp_resolve_of (wp_free_perform.mpr ?_)
    rintro (e | (_ | remote)) w₂ hop
    · intro record hr
      cases hr
    · have hiso : k.isolated w₂ := isolated_op hop.2 hop
      refine wp_mono ?_ (wp_isolated hiso)
      rintro (e | u) w₃ hw₃
      · intro record hr
        cases hr
      · exact fun _ _ _ => hw₃
    · have hiso : remote.state = .UNKNOWN → k.isolated w₂ := fun hst =>
        isolated_op (hop.2 hst) hop
      refine wp_mono ?_ (wp_unknown remote.state hiso)
      rintro (e | u) w₃ hw₃
      · intro record hr
        cases hr
      · rintro record ⟨rfl⟩
        exact hw₃

theorem wp_isolatingAdopt {record : OrderRecord} (hw : record.state = .UNKNOWN → k.isolated w) :
    wp (isolatingHandler Ex k) .free () (adopt k.service k.args record) (UnknownMeans k) w := by
  refine wp_bind.mpr (wp_mono ?_ (wp_unknown record.state hw))
  rintro (e | u) w₁ hw₁
  · intro record' hr
    cases hr
  · rintro record' ⟨rfl⟩
    exact hw₁

/-- The handler of an ambiguous exception isolates, when the service has an isolation. -/
theorem wp_isolate :
    wp (isolatingHandler Ex k) .free () (isolate k.service k.args)
      (fun r w => r = .ok () → k.isolated w) w := by
  unfold isolate
  cases hiso : k.service.symbolIsolation with
  | none =>
    refine wp_mono ?_ wp_anything
    intro r w₁ _ _ iso hsome
    rw [hiso] at hsome
    cases hsome
  | some iso =>
    refine wp_free_perform.mpr ?_
    rintro r w₁ ⟨⟨-, rfl⟩, -⟩ - iso' hsome
    rw [hiso] at hsome
    obtain rfl := Option.some.inj hsome
    simp [Isolated, World.setBlocked, Call.key]

theorem wp_isolatingSideEffect {n : OrderIntent} {record : OrderRecord} :
    wp (isolatingHandler Ex k) .free () (sideEffect k.service k.args n record)
      (UnknownMeans k) w := by
  refine wp_sideEffect_of (P := fun _ => True)
    (R := fun actual w => actual.state = .UNKNOWN → k.isolated w)
    (E := fun _ _ => True) ?_ ?_ ?_ ?_ ?_ ?_
  · refine wp_mono ?_ wp_anything
    rintro (e | u) w₁ -
    · intro record' hr
      cases hr
    · trivial
  · intro w₁ _
    refine wp_mono ?_ wp_anything
    rintro (e | u) w₂ - <;> trivial
  · intro w₁ _
    refine wp_free_perform.mpr ?_
    rintro (e | actual) w₂ hop
    · trivial
    · exact fun hst => isolated_op (hop.2 hst) hop
  · intro actual w₁ hw₁
    refine wp_mono ?_ (wp_unknown actual.state hw₁)
    rintro (e | u) w₂ hw₂
    · trivial
    · refine wp_mono ?_ (wp_unknown actual.state hw₂)
      rintro (e | u) w₃ hw₃
      · trivial
      · rintro record' ⟨rfl⟩
        exact hw₃
  · intro e w₁ _ _
    refine wp_handleAmbiguous_of (wp_mono ?_ wp_anything)
    rintro (e | u) w₂ -
    · intro record' hr
      cases hr
    refine wp_mono ?_ wp_anything
    rintro (e | u) w₃ -
    · intro record' hr
      cases hr
    refine wp_mono ?_ wp_isolate
    rintro (e | u) w₄ hw₄
    · intro record' hr
      cases hr
    · exact fun _ _ _ => hw₄ rfl
  · intro e w₁ _ _ record' hr
    cases hr

/-- **A call that returns UNKNOWN leaves its symbol isolated.** -/
theorem wp_isolatingSubmit :
    wp (isolatingHandler Ex k) .free () (k.service.submit k.args) (UnknownMeans k) w := by
  refine wp_submit_of (P := fun _ => True) ?_ ?_ ?_ ?_ ?_ ?_ ?_
  · exact fun w _ _ => wp_anything
  · exact wp_anything
  · intro r w₁ hw₁
    refine wp_free_perform.mpr ?_
    rintro (e | u) w₂ hop
    · intro record hr
      cases hr
    · exact fun record hr hst => isolated_op (hw₁ record hr hst) hop
  · intro e w₁ _ record hr
    cases hr
  · intro w₁ _
    refine wp_free_perform.mpr ?_
    rintro r w₂ hop
    refine ⟨trivial, ?_⟩
    rintro record rfl record' ⟨rfl⟩ hst
    exact isolated_op (hop.2 hst) hop
  · intro w₁ _ _
    refine wp_mono ?_ (wp_isolatingReconcile _ _)
    rintro (e | (_ | existing)) w₂ hw₂
    · intro record hr
      cases hr
    · trivial
    · exact wp_isolatingAdopt (hw₂ existing rfl)
  · intro n w₁ _ _
    split
    · refine wp_reserveAndSend_of (P := fun _ => True) (O := fun _ => True)
        (wp_reserve_of ?_ ?_ ?_ trivial) ?_ ?_ ?_
      · exact fun w _ => wp_anything
      · intro w _
        refine wp_mono ?_ wp_anything
        rintro (e | u) w₂ - <;> trivial
      · exact fun w _ => wp_anything
      · intro e w₂ _ record hr
        cases hr
      · exact fun record w _ => wp_isolatingSideEffect
      · intro w _
        refine wp_bind.mpr (wp_mono ?_ (wp_isolatingReconcile _ _))
        rintro (e | (_ | resolved)) w₂ hw₂
        · intro record hr
          cases hr
        · intro record hr
          cases hr
        · exact wp_isolatingAdopt (hw₂ resolved rfl)
    · exact wp_isolatingSideEffect

/-! ## 4. An isolated symbol is refused -/

/-- **A call for an isolated symbol is refused**, and nothing is sent. -/
theorem wp_refused {iso : ℕ} (hiso : k.service.symbolIsolation = some iso)
    (hreduce : k.args.intent.reduceOnly = false) (hw : Isolated iso k.key w) :
    wp (handler Ex) .free () (k.service.submit k.args)
      (fun r w' => (∃ e, r = .error e) ∧ w'.submitted = w.submitted) w := by
  refine wp_bind.mpr (wp_free_perform.mpr ?_)
  rintro (e | u) w₁ hacquire
  · rcases hacquire with ⟨-, hr, -⟩ | ⟨e', hr, rfl⟩
    · cases hr
    · exact ⟨⟨e, rfl⟩, rfl⟩
  have hw₁ : Isolated iso k.key w₁ := isolated_change (handler_change hacquire) hw
  have hsent : w₁.submitted = w.submitted := by
    rcases hacquire with ⟨-, -, rfl⟩ | ⟨e, hr, -⟩
    · rfl
    · cases hr
  have hcheck : wp (handler Ex) .free () (checkIsolation k.service k.args)
      (fun r w' => (∃ e, r = .error e) ∧ w'.submitted = w.submitted) w₁ := by
    unfold checkIsolation
    rw [hiso]
    refine wp_bind.mpr (wp_free_perform.mpr ?_)
    rintro r w₂ ⟨rfl, rfl⟩
    have hblocked : (w₂.blocked iso (k.args.intent.accountId,
        PyStr.upper k.args.intent.symbol)).isSome = true := hw₁
    rw [onOk_ok, hblocked, hreduce, if_pos (by decide)]
    exact ⟨⟨_, rfl⟩, hsent⟩
  have hbody : wp (handler Ex) .free ()
      (do guards k.service k.args; submitAdmitted k.service k.args)
      (fun r w' => (∃ e, r = .error e) ∧ w'.submitted = w.submitted) w₁ := by
    refine wp_bind.mpr (wp_bind.mpr (wp_mono ?_ hcheck))
    rintro (e | u) w₂ ⟨⟨e', he'⟩, hw₂⟩
    · exact ⟨⟨e, rfl⟩, hw₂⟩
    · cases he'
  refine wp_finally.mpr (wp_mono ?_ hbody)
  rintro r w₂ ⟨⟨e, rfl⟩, hw₂⟩
  refine wp_free_perform.mpr ?_
  rintro r w₃ ⟨rfl, rfl⟩
  exact ⟨⟨e, rfl⟩, hw₂⟩

/-! ## 5. The result -/

/-- **Where UNKNOWN is only met on isolated symbols, it isolates**: in every history, restarts
and crashes included. -/
theorem unknown_isolates_of_condition (Ex : Exchange ε) (w₀ : World ε) :
    UnknownIsolates ((sequential Ex).meeting UnknownWhileIsolated) w₀ := by
  intro tr₀ w k record w₁ iso _ hrun hunknown hiso tr w₂ k' r w₃ htr hclear hiso' hkey hreduce hrun'
  have hw₁ : Isolated iso k.key w₁ := hrun.of_wp wp_isolatingSubmit record rfl hunknown iso hiso
  have hw₂ : Isolated iso k.key w₂ := isolated_session htr.of_meeting hclear hw₁
  rw [← hkey] at hw₂
  exact hrun'.of_meeting.of_wp (wp_refused hiso' hreduce hw₂)

end Histories

/-! ## 6. An unresolved order that isolates nothing -/

section Unresolved

attribute [local instance] asciiStr exactColumn

/-- A call through a ledger, with an isolation. -/
def isolatingCall (id : String) : Call where
  service := { ExecutionService.process false with symbolIsolation := some 0 }
  args := .limitBuy id

def isolatingScript : Script execSig (World Unit) := cooperate .plain .acknowledging

/-- The process dies after it has reserved the intent and comes back. -/
def afterCrash : World Unit :=
  (((isolatingCall "i-1").service.submit (isolatingCall "i-1").args).playFor isolatingScript 11
    (World.empty ())).2.restarted (isolatingCall "i-1").service

/-- The same intent again: the exchange does not know it. -/
def resubmitted : Except Exc OrderRecord × World Unit :=
  ((isolatingCall "i-1").service.submit (isolatingCall "i-1").args).play isolatingScript afterCrash

/-- Then another order for the same symbol. -/
def nextOrder : Except Exc OrderRecord × World Unit :=
  ((isolatingCall "i-2").service.submit (isolatingCall "i-2").args).play isolatingScript
    resubmitted.2

/-- **The unresolved order is returned as UNKNOWN, and the next one is sent.** -/
theorem unknown_not_isolated :
    ¬UnknownIsolates (sequential (Exchange.any Unit)) (World.empty ()) := by
  intro h
  have hpicks : isolatingScript.Picks (handler (Exchange.any Unit)) :=
    cooperate_picks (Venue.picks_any _) .plain
  have hcrash : Session (sequential (Exchange.any Unit)) (World.empty ())
      [.crashed (isolatingCall "i-1")] afterCrash :=
    .crashed _ _ (exec_playFor hpicks 11 _ _) (.nil _)
  have hunknown : returnedState resubmitted.1 = some .UNKNOWN := by decide +kernel
  obtain ⟨record, hrecord, hstate⟩ := returnedState_eq_some hunknown
  have hrun : Runs (handler (Exchange.any Unit))
      ((isolatingCall "i-1").service.submit (isolatingCall "i-1").args) afterCrash
      resubmitted.1 resubmitted.2 := runs_play hpicks _ _
  rw [hrecord] at hrun
  have hnext : Runs (handler (Exchange.any Unit))
      ((isolatingCall "i-2").service.submit (isolatingCall "i-2").args) resubmitted.2
      nextOrder.1 nextOrder.2 := runs_play hpicks _ _
  obtain ⟨-, hsent⟩ := h _ afterCrash (isolatingCall "i-1") record resubmitted.2 0 hcrash hrun
    hstate rfl [] resubmitted.2 (isolatingCall "i-2") nextOrder.1 nextOrder.2 (.nil _)
    (fun _ _ hmem => absurd hmem List.not_mem_nil) rfl rfl rfl hnext
  have hcount : nextOrder.2.submitted.length = resubmitted.2.submitted.length + 1 := by
    decide +kernel
  rw [hsent] at hcount
  omega

end Unresolved

end Kripto.Execution
