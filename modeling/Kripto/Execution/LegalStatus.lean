/-
# Which status writes follow the transition table

Nothing on the write path consults `execution/state.py`: `mark` stores the state of the record it
is given.  What state that can be is decided by the exchange.  A row is written by the worker
that has just inserted it as SUBMITTED, or by a reconciliation that found it in SUBMITTED or
UNKNOWN, so it takes an answer the table does not allow after one of these two to make an
illegal write -- and such answers exist: a SUBMITTED order may turn out CANCELLED.

Shown here: with answers from outside three states each, every write in every sequential history
is legal, crashes and restarts included.
-/
import Kripto.Execution.Script

namespace Kripto.Execution

open Effect PersistentIntentLedger
open ExecutionService hiding id

section Histories

variable {ε : Type} [PyStr] [NumericColumn]

/-! ## 1. The property and the condition -/

/-- Every status that changes between the two worlds changes along the table. -/
def LegalStep (w w' : World ε) : Prop :=
  ∀ id row, w.orders id = some row →
    ∃ row', w'.orders id = some row' ∧ Legal row.status row'.status

/-- **Every status write is legal**, whatever operation of whatever call of a history makes it. -/
def StatusLegal (Y : Session.System execSig (World ε) OrderRecord Call Between)
    (w : World ε) : Prop :=
  ∀ o w₁ w₂, Session.Performs Y w o w₁ w₂ → LegalStep w₁ w₂

open OrderState in
/-- The states an answer must not have, by the state of the row it will be written to. -/
def OrderState.barred : OrderState → List OrderState
  | SUBMITTED => [CREATED, CANCEL_PENDING, CANCELLED]
  | UNKNOWN => [CREATED, SUBMITTED, CANCEL_PENDING]
  | _ => []

/-- **The condition** on the answers of the exchange. -/
def LegalAnswers (k : Call) : (o : Op) → World ε → execSig.Ans o → Prop
  | .submitOrder n, w, .ok record => k.service.persistentIntents = true →
      ∀ row, w.orders n.intentId = some row → record.state ∉ row.status.barred
  | .getOrder id _, w, .ok (some record) =>
      ∀ row, w.orders id = some row → record.state ∉ row.status.barred
  | _, _, _ => True

omit [PyStr] [NumericColumn] in
/-- What is not barred after SUBMITTED or UNKNOWN is legal there. -/
theorem legal_of_not_barred {st st' : OrderState} (hst : st = .SUBMITTED ∨ st = .UNKNOWN)
    (h : st' ∉ st.barred) : Legal st st' := by
  rcases hst with rfl | rfl <;> revert h <;> cases st' <;> decide

omit [PyStr] [NumericColumn] in
theorem LegalStep.of_same {w w' : World ε} (h : w'.orders = w.orders) : LegalStep w w' :=
  fun id row hrow => ⟨row, by rw [h, hrow], Or.inl rfl⟩

/-! ## 2. One operation -/

/-- The handler of a call whose answers meet the condition. -/
abbrev legalHandler (Ex : Exchange ε) (k : Call) : Handler execSig (World ε) :=
  (handler Ex).meeting (LegalAnswers k)

/-- A call runs alone; what is asked of every operation is that it writes legally. -/
abbrev legalWrites : Protocol Unit (World ε) := .alone (fun _ => True) LegalStep

/-- The row of an intent has this status. -/
def StatusIs (id : String) (st : OrderState) (w : World ε) : Prop :=
  ∃ row, w.orders id = some row ∧ row.status = st

/-- If the call writes a ledger, its row is there and SUBMITTED. -/
def Pending (k : Call) (id : String) (w : World ε) : Prop :=
  k.service.persistentIntents = true → StatusIs id .SUBMITTED w

/-- The operations that do not write the table. -/
def Op.LeavesOrders : Op → Prop
  | insertOrder _ | updateOrder .. => False
  | _ => True

omit [PyStr] [NumericColumn] in
theorem Op.Reads.leavesOrders {o : Op} (h : o.Reads) : o.LeavesOrders := by
  cases o <;> first | exact h.elim | trivial

theorem leavesOrders_orders {Ex : Exchange ε} {o : Op} (ho : o.LeavesOrders) {w w' : World ε}
    (h : Change Ex o w w') : w'.orders = w.orders := by
  cases h with
  | inserted => exact ho.elim
  | marked => exact ho.elim
  | _ => rfl

variable {Ex : Exchange ε} {k : Call} {w : World ε}

/-- An operation that does not write the table, seen from any fact about the table. -/
theorem wp_leavesOrders {α : Type} {p : Program α} (P : (String → Option OrderRow) → Prop)
    (hp : p.Within Op.LeavesOrders) (hw : P w.orders) :
    wp (legalHandler Ex k) legalWrites () p (fun _ w => P w.orders) w := by
  refine wp_within (Protocol.stable_alone fun w : World ε => P w.orders) ?_ hp hw
  rintro o w₁ r w₂ ho hP - ⟨hop, -⟩
  have horders := leavesOrders_orders ho (handler_change hop)
  refine ⟨.of_same horders, trivial, ?_⟩
  rwa [horders]

theorem wp_leaves {α : Type} {p : Program α} (hp : p.Within Op.LeavesOrders) :
    wp (legalHandler Ex k) legalWrites () p (fun _ _ => True) w :=
  wp_leavesOrders (fun _ => True) hp trivial

/-- A row that was not there is not a change of status. -/
theorem wp_insertRow (row : OrderRow) :
    wp (legalHandler Ex k) legalWrites () (perform (.insertOrder row))
      (fun r w => r = .ok () → StatusIs row.intentId row.status w) w := by
  refine wp_perform_iff.mpr ?_
  rintro w₁ rfl - r w₂ ⟨hop, -⟩
  rcases hop with ⟨free, rfl, rfl⟩ | ⟨hr, rfl⟩
  · refine ⟨fun id row' hrow' => ?_, trivial, fun _ => ⟨row.stored, World.setOrder_self .., rfl⟩⟩
    have hne : id ≠ row.intentId := by
      rintro rfl
      rw [free] at hrow'
      exact absurd hrow' (by simp)
    exact ⟨row', by rw [World.setOrder_of_ne _ _ hne, hrow'], Or.inl rfl⟩
  · refine ⟨.of_same rfl, trivial, ?_⟩
    rintro rfl
    rcases hr with hr | hr <;> exact absurd hr (by simp)

/-- **A legal mark.** -/
theorem wp_legalMark {id : String} {st : OrderState} (record : OrderRecord)
    (hrow : StatusIs id st w) (hlegal : Legal st record.state) :
    wp (legalHandler Ex k) legalWrites () (mark id record) (fun r _ => Unambiguous r) w := by
  refine wp_mark_of (wp_perform_iff.mpr ?_)
  rintro w₁ rfl - r w₂ ⟨hop, -⟩
  obtain ⟨row, hfound, rfl⟩ := hrow
  rcases hop with ⟨row', hfound', rfl, rfl⟩ | ⟨hnone, -, -⟩ | ⟨rfl, rfl⟩
  · obtain rfl : row = row' := Option.some.inj (hfound.symm.trans hfound')
    refine ⟨fun id' row' hrow' => ?_, trivial, trivial⟩
    by_cases hid : id' = id
    · subst hid
      obtain rfl : row = row' := Option.some.inj (hfound.symm.trans hrow')
      exact ⟨row.marked record, World.setOrder_self .., hlegal⟩
    · exact ⟨row', by rw [World.setOrder_of_ne _ _ hid, hrow'], Or.inl rfl⟩
  · rw [hfound] at hnone
    exact absurd hnone (by simp)
  · refine ⟨.of_same rfl, trivial, ?_⟩
    change ¬Ambiguous .databaseError
    decide

/-- **The answer of `submit_order`** to a call whose row is new. -/
theorem wp_legalSubmit {n : OrderIntent} (hrow : Pending k n.intentId w) :
    wp (legalHandler Ex k) legalWrites () (perform (.submitOrder n))
      (fun r w => Pending k n.intentId w ∧ ∀ record, r = .ok record →
        k.service.persistentIntents = true → Legal .SUBMITTED record.state) w := by
  refine wp_perform_iff.mpr ?_
  rintro w₁ rfl - r w₂ ⟨hop, hcond⟩
  have horders := leavesOrders_orders (o := .submitOrder n) trivial (handler_change hop)
  refine ⟨.of_same horders, trivial, fun hself => ?_, ?_⟩
  · obtain ⟨row, hfound, hstatus⟩ := hrow hself
    exact ⟨row, by rw [horders, hfound], hstatus⟩
  · rintro record rfl hself
    obtain ⟨row, hfound, hstatus⟩ := hrow hself
    have hnot := hcond hself row hfound
    rw [hstatus] at hnot
    exact legal_of_not_barred (Or.inl rfl) hnot

/-- **The answer of `get_order`** to a reconciliation. -/
theorem wp_legalGet {id : String} {q : OrderQuery} {row : OrderRow}
    (hfound : w.orders id = some row) (hopen : row.status = .SUBMITTED ∨ row.status = .UNKNOWN) :
    wp (legalHandler Ex k) legalWrites () (perform (.getOrder id q))
      (fun r w => w.orders id = some row ∧ ∀ record, r = .ok (some record) →
        Legal row.status record.state) w := by
  refine wp_perform_iff.mpr ?_
  rintro w₁ rfl - r w₂ ⟨hop, hcond⟩
  have horders := leavesOrders_orders (o := .getOrder id q) trivial (handler_change hop)
  refine ⟨.of_same horders, trivial, by rw [horders, hfound], ?_⟩
  rintro record rfl
  exact legal_of_not_barred hopen (hcond row hfound)

/-! ## 3. The program -/

omit [PyStr] [NumericColumn] in
theorem legal_unknown {st : OrderState} (h : st = .SUBMITTED ∨ st = .UNKNOWN) :
    Legal st .UNKNOWN := by
  rcases h with rfl | rfl <;> decide

/-- **Reconciliation writes legally**: an answer by the condition, UNKNOWN by the table. -/
theorem wp_legalReconcile (id : String) (expected : Option OrderIntent) :
    wp (legalHandler Ex k) legalWrites () (reconcileExisting id expected)
      (fun _ _ => True) w := by
  refine wp_reconcile_of (F := fun row w => w.orders id = some row) ?_ ?_ ?_ ?_
  · refine wp_perform_iff.mpr ?_
    rintro w₁ rfl - r w₂ ⟨⟨hr, rfl⟩, -⟩
    refine ⟨.of_same rfl, trivial, ?_⟩
    rcases r with e | (_ | row)
    · trivial
    · trivial
    · rcases hr with hr | hr
      · exact (Except.ok.inj hr).symm
      · cases hr
  · intros
    trivial
  · intros
    trivial
  · intro row w₁ hfound _ hopen
    refine wp_resolve_of (wp_mono ?_ (wp_legalGet hfound hopen))
    rintro (e | (_ | remote)) w₂ ⟨hfound₂, hlegal⟩
    · trivial
    · refine wp_mono ?_ (wp_legalMark { toRecord row with state := .UNKNOWN }
        ⟨row, hfound₂, rfl⟩ (legal_unknown hopen))
      rintro (e | u) w₃ - <;> trivial
    · refine wp_mono ?_ (wp_legalMark remote ⟨row, hfound₂, rfl⟩ (hlegal remote rfl))
      rintro (e | u) w₃ - <;> trivial

theorem wp_legalMarkDurable {n : OrderIntent} (record : OrderRecord)
    (hid : n.intentId = k.args.intent.intentId) (hrow : Pending k n.intentId w)
    (hlegal : k.service.persistentIntents = true → Legal .SUBMITTED record.state) :
    wp (legalHandler Ex k) legalWrites () (markDurable k.service k.args record)
      (fun r _ => Unambiguous r) w := by
  rw [hid] at hrow
  unfold markDurable
  split
  · rename_i hself
    exact wp_legalMark record (hrow hself) (hlegal hself)
  · trivial

/-- **The side effect writes legally** onto its new row. -/
theorem wp_legalSideEffect {n : OrderIntent} {record : OrderRecord}
    (hid : n.intentId = k.args.intent.intentId) (hrow : Pending k n.intentId w) :
    wp (legalHandler Ex k) legalWrites () (sideEffect k.service k.args n record)
      (fun _ _ => True) w := by
  have hkeep : ∀ {α : Type} {p : Program α} (w : World ε), p.Within Op.LeavesOrders →
      Pending k n.intentId w →
      wp (legalHandler Ex k) legalWrites () p (fun _ => Pending k n.intentId) w :=
    fun w hp h => wp_leavesOrders (fun orders => k.service.persistentIntents = true →
      ∃ row, orders n.intentId = some row ∧ row.status = .SUBMITTED) hp h
  refine wp_sideEffect_of (P := Pending k n.intentId)
    (R := fun actual w => Pending k n.intentId w ∧
      (k.service.persistentIntents = true → Legal .SUBMITTED actual.state))
    (E := fun e w => Ambiguous e → Pending k n.intentId w) ?_ ?_ ?_ ?_ ?_ ?_
  · refine wp_mono ?_ (hkeep w (Prog.within_perform.mpr trivial) hrow)
    rintro (e | u) w₁ h
    · trivial
    · exact h
  · intro w₁ h
    refine wp_mono ?_ (hkeep w₁ (within_checkFence trivial) h)
    rintro (e | u) w₂ h₂
    · exact fun _ => h₂
    · exact h₂
  · intro w₁ h
    refine wp_mono ?_ (wp_legalSubmit h)
    rintro (e | actual) w₂ ⟨h₂, hlegal⟩
    · exact fun _ => h₂
    · exact ⟨h₂, hlegal actual rfl⟩
  · rintro actual w₁ ⟨h, hlegal⟩
    refine wp_mono ?_ (hkeep w₁ (Prog.within_perform.mpr trivial) h)
    rintro (e | u) w₂ h₂
    · exact fun _ => h₂
    · refine wp_mono ?_ (wp_legalMarkDurable actual hid h₂ hlegal)
      rintro (e | u) w₃ hun
      · exact fun hamb => absurd hamb hun
      · trivial
  · intro e w₁ h hamb
    refine wp_handleAmbiguous_of (wp_mono ?_ (hkeep w₁ (Prog.within_perform.mpr trivial)
      (h hamb)))
    rintro (e | u) w₂ h₂
    · trivial
    refine wp_mono ?_ (wp_legalMarkDurable { record with state := .UNKNOWN } hid h₂
      fun _ => legal_unknown (Or.inl rfl))
    rintro (e | u) w₃ -
    · trivial
    refine wp_mono ?_ (wp_leaves (within_isolate (fun _ => trivial) trivial))
    rintro (e | u) w₄ - <;> trivial
  · intros
    trivial

/-- **A call writes legally**, from whatever world it starts in. -/
theorem wp_legalSubmitCall :
    wp (legalHandler Ex k) legalWrites () (k.service.submit k.args) (fun _ _ => True) w := by
  refine wp_submit_of (P := fun _ => True) ?_ ?_ ?_ ?_ ?_ ?_ ?_
  · exact fun w hp _ => wp_leaves (hp.mono fun _ => Op.Reads.leavesOrders)
  · exact wp_leaves (Prog.within_perform.mpr trivial)
  · intro r w₁ _
    refine wp_mono ?_ (wp_leaves (Prog.within_perform.mpr trivial))
    rintro (e | u) w₂ - <;> trivial
  · intros
    trivial
  · intro w₁ _
    refine wp_mono ?_ (wp_leaves (Prog.within_perform.mpr trivial))
    exact fun r w₂ _ => ⟨trivial, fun _ _ => trivial⟩
  · intro w₁ _ _
    refine wp_mono ?_ (wp_legalReconcile _ _)
    rintro (e | (_ | existing)) w₂ -
    · trivial
    · trivial
    · exact wp_leaves (within_adopt trivial)
  · rintro n w₁ - ⟨filters, cap, hn⟩
    obtain ⟨qty, price, -, -, heq⟩ := normalizeAndValidate_eq_ok hn
    have hid : n.intentId = k.args.intent.intentId := by rw [heq]
    split
    · refine wp_reserveAndSend_of (P := fun _ => True) (O := StatusIs n.intentId .SUBMITTED)
        (wp_reserve_of ?_ ?_ ?_ trivial) ?_ ?_ ?_
      · exact fun w _ => wp_leaves (Prog.within_perform.mpr trivial)
      · intro w _
        refine wp_mono ?_ (wp_insertRow (newRow n))
        rintro (e | u) w₂ h
        · trivial
        · exact h rfl
      · exact fun w h => wp_leavesOrders
          (fun orders => ∃ row, orders n.intentId = some row ∧ row.status = .SUBMITTED)
          (Prog.within_perform.mpr trivial) h
      · intros
        trivial
      · exact fun record w h => wp_legalSideEffect hid fun _ => h
      · intro w _
        refine wp_bind.mpr (wp_mono ?_ (wp_legalReconcile _ _))
        rintro (e | (_ | resolved)) w₂ -
        · trivial
        · trivial
        · exact wp_leaves (within_adopt trivial)
    · rename_i hself
      exact wp_legalSideEffect hid fun hself' => absurd hself' hself

/-! ## 4. The result -/

/-- **With answers from outside the barred states, every status write is legal**: in every
sequential history from every world, at every operation of every call, also of the calls that
crash. -/
theorem status_legal_of_answers (Ex : Exchange ε) (w : World ε) :
    StatusLegal ((sequential Ex).meeting LegalAnswers) w :=
  fun _ _ _ h => h.guar fun _ _ => wp_legalSubmitCall

end Histories

/-! ## 5. A cancelled order -/

section Cancelled

attribute [local instance] asciiStr exactColumn

/-- An exchange that cannot place the order within its time in force. -/
def Venue.cancelling : Venue Unit where
  submit := fun n e => (.ok (n.taken .CANCELLED "x-1"), e)
  get := fun _ _ e => (.ok none, e)

/-- One order, sent through a ledger. -/
def cancelledCall : Call where
  service := .process false
  args := .limitBuy "i-1"

/-- The world after the first `n` operations of the call. -/
def cancelledAfter (n : ℕ) : World Unit :=
  ((cancelledCall.service.submit cancelledCall.args).playFor (cooperate .plain .cancelling) n
    (World.empty ())).2

/-- **SUBMITTED is followed by CANCELLED**, which the table does not have. -/
theorem status_not_legal : ¬StatusLegal (sequential (Exchange.any Unit)) (World.empty ()) := by
  intro h
  have hpicks : (cooperate .plain Venue.cancelling).Picks (handler (Exchange.any Unit)) :=
    cooperate_picks (Venue.picks_any _) .plain
  have hrunning : ((cancelledCall.service.submit cancelledCall.args).playFor
      (cooperate .plain .cancelling) 14 (World.empty ())).1.running = true := by decide +kernel
  obtain ⟨o, hop⟩ := performs_playFor (Y := sequential (Exchange.any Unit))
    (k := cancelledCall) hpicks 14 _ hrunning
  have hbefore : ((cancelledAfter 14).orders "i-1").map (·.status) = some .SUBMITTED := by
    decide +kernel
  have hafter : ((cancelledAfter 15).orders "i-1").map (·.status) = some .CANCELLED := by
    decide +kernel
  obtain ⟨row, hrow, hstatus⟩ := Option.map_eq_some_iff.mp hbefore
  obtain ⟨row', hrow', hlegal⟩ := h o _ _ hop "i-1" row hrow
  change (cancelledAfter 15).orders "i-1" = some row' at hrow'
  rw [hrow', Option.map_some] at hafter
  rw [hstatus, Option.some.inj hafter] at hlegal
  exact absurd hlegal (by decide)

end Cancelled

end Kripto.Execution
