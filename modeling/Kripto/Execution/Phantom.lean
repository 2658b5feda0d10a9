/-
# Records of orders nobody has confirmed

A record in SUBMITTED, ACKNOWLEDGED, PARTIALLY_FILLED or FILLED tells the caller that the order is
at the exchange.  `submit` caches such a record -- SUBMITTED -- before the order is sent, and
takes it back only when the exception that follows is an ambiguous one.  After any other
exception the next call finds it in the cache.

* A fencing refusal leaves such a phantom.
* Where the fence and the exchange raise nothing but ambiguous exceptions, every live record any
  call returns was reported by the exchange for that intent, in every history.
-/
import Kripto.Execution.Script

namespace Kripto.Execution

open Effect PersistentIntentLedger
open ExecutionService hiding id

section Histories

variable {ε : Type}

/-! ## 1. The property and the condition -/

open OrderState in
/-- The states that say the order is, or was, at the exchange. -/
def OrderState.Live (st : OrderState) : Prop :=
  st ∈ [SUBMITTED, ACKNOWLEDGED, PARTIALLY_FILLED, FILLED]

instance (st : OrderState) : Decidable st.Live := inferInstanceAs (Decidable (_ ∈ _))

/-- The exchange has returned a record in this state when asked for this intent. -/
def World.Reported (w : World ε) (id : String) (st : OrderState) : Prop :=
  ∃ record, (id, record) ∈ w.reported ∧ record.state = st

/-- The service's cache or the ledger has the intent. -/
def World.Recorded (w : World ε) (k : Call) : Prop :=
  w.records k.service.id k.args.intent.intentId ≠ none ∨
    w.orders k.args.intent.intentId ≠ none

/-- **No phantoms.**  After a call that raised, other than ambiguously, with its intent recorded,
no later call of that intent on the same service returns a live record that the exchange has not
reported. -/
def NoPhantoms (Y : Session.System execSig (World ε) OrderRecord Call Between)
    (w₀ : World ε) : Prop :=
  ∀ tr w k e w₁ tr' w₂ k' record w₃, Session Y w₀ tr w →
    Runs (Y.handler k) (Y.body k) w (.error e) w₁ → ¬Ambiguous e → w₁.Recorded k →
    Session Y w₁ tr' w₂ → k'.service = k.service →
    k'.args.intent.intentId = k.args.intent.intentId →
    Runs (Y.handler k') (Y.body k') w₂ (.ok record) w₃ → record.state.Live →
    w₃.Reported k'.args.intent.intentId record.state

/-- **The condition**: what the fence and the exchange raise is ambiguous. -/
def AmbiguousOnly : (o : Op) → World ε → execSig.Ans o → Prop
  | .requireCurrent .., _, .error e => Ambiguous e
  | .submitOrder _, _, .error e => Ambiguous e
  | _, _, _ => True

/-! ## 2. Honest worlds -/

/-- **Live entries are reported ones**: of the caches, those in `S`, and of the table all but
SUBMITTED, which is only a reservation there. -/
structure HonestFor (S : ℕ → String → Prop) (w : World ε) : Prop where
  cache : ∀ svc id record, S svc id → w.records svc id = some record → record.state.Live →
    w.Reported id record.state
  rows : ∀ id row, w.orders id = some row → row.status.Live → row.status ≠ .SUBMITTED →
    w.Reported id row.status

/-- Every cache entry. -/
abbrev Honest (w : World ε) : Prop := HonestFor (fun _ _ => True) w

/-- All but the entry a call is working on. -/
def Call.elsewhere (k : Call) (svc : ℕ) (id : String) : Prop :=
  ¬(svc = k.service.id ∧ id = k.args.intent.intentId)

/-- All but the cache of the call's service, which a crash takes. -/
def Call.outside (k : Call) (svc : ℕ) (_ : String) : Prop := svc ≠ k.service.id

theorem HonestFor.mono {S S' : ℕ → String → Prop} {w : World ε} (h : HonestFor S w)
    (hS : ∀ svc id, S' svc id → S svc id) : HonestFor S' w :=
  ⟨fun svc id record hs => h.cache svc id record (hS svc id hs), h.rows⟩

theorem HonestFor.outside {S : ℕ → String → Prop} {w : World ε} {k : Call}
    (h : HonestFor S w) (hS : ∀ svc id, k.outside svc id → S svc id) :
    HonestFor k.outside w :=
  h.mono hS

theorem Call.outside_elsewhere {k : Call} {svc : ℕ} {id : String} (h : k.outside svc id) :
    k.elsewhere svc id :=
  fun heq => h heq.1

/-- A restart empties the cache that was left out. -/
theorem HonestFor.restarted {w : World ε} {service : ExecutionService}
    (h : HonestFor (fun svc _ => svc ≠ service.id) w) : Honest (w.restarted service) := by
  refine ⟨fun svc id record _ hrecord hlive => ?_, h.rows⟩
  by_cases hsvc : svc = service.id
  · subst hsvc
    simp [World.restarted] at hrecord
  · have hsame : w.records svc id = some record := by
      simpa [World.restarted, Function.update_of_ne hsvc] using hrecord
    exact h.cache svc id record hsvc hsame hlive

/-- What an operation may write so that nothing unreported comes to look live. -/
def Op.Truthful (S : ℕ → String → Prop) (w : World ε) : Op → Prop
  | setRecord svc id record => S svc id → record.state.Live → w.Reported id record.state
  | updateOrder id record => record.state.Live → record.state ≠ .SUBMITTED →
      w.Reported id record.state
  | insertOrder row => row.status = .SUBMITTED
  | _ => True

theorem World.Reported.mono {w w' : World ε} {id : String} {st : OrderState}
    (h : w.Reported id st) (hsub : w.reported ⊆ w'.reported) : w'.Reported id st := by
  obtain ⟨record, hmem, hst⟩ := h
  exact ⟨record, hsub hmem, hst⟩

variable [PyStr] [NumericColumn]

/-- The exchange's records are only added to. -/
theorem reported_change {Ex : Exchange ε} {o : Op} {w w' : World ε} (h : Change Ex o w w') :
    w.reported ⊆ w'.reported := by
  cases h with
  | sent _ n r v _ =>
    cases r with
    | ok record => exact List.subset_cons_self ..
    | error e => exact List.Subset.refl _
  | asked _ id q r v _ =>
    rcases r with e | (_ | record)
    · exact List.Subset.refl _
    · exact List.Subset.refl _
    · exact List.subset_cons_self ..
  | _ => exact List.Subset.refl _

/-- **Truthful operations keep the world honest.** -/
theorem HonestFor.change {Ex : Exchange ε} {S : ℕ → String → Prop} {o : Op} {w w' : World ε}
    (h : HonestFor S w) (ho : o.Truthful S w) (hc : Change Ex o w w') : HonestFor S w' := by
  have hsub := reported_change hc
  have hsame : w'.records = w.records → w'.orders = w.orders → HonestFor S w' := by
    intro hrecords horders
    refine ⟨fun svc id record hs hrecord hlive => ?_, fun id row hrow hlive hne => ?_⟩
    · rw [hrecords] at hrecord
      exact (h.cache svc id record hs hrecord hlive).mono hsub
    · rw [horders] at hrow
      exact (h.rows id row hrow hlive hne).mono hsub
  cases hc with
  | cached _ svc id record =>
    refine ⟨fun svc' id' record' hs hrecord hlive => ?_, h.rows⟩
    by_cases hkey : svc' = svc ∧ id' = id
    · obtain ⟨rfl, rfl⟩ := hkey
      obtain rfl : record = record' := by simpa [World.setCache] using hrecord
      exact ho hs hlive
    · rw [World.setCache_of_ne _ _ hkey] at hrecord
      exact h.cache svc' id' record' hs hrecord hlive
  | inserted _ row free =>
    refine ⟨h.cache, fun id row' hrow hlive hne => ?_⟩
    by_cases hid : id = row.intentId
    · subst hid
      rw [World.setOrder_self] at hrow
      obtain rfl := Option.some.inj hrow
      exact absurd ho hne
    · rw [World.setOrder_of_ne _ _ hid] at hrow
      exact h.rows id row' hrow hlive hne
  | marked _ id record row found =>
    refine ⟨h.cache, fun id' row' hrow hlive hne => ?_⟩
    by_cases hid : id' = id
    · subst hid
      rw [World.setOrder_self] at hrow
      obtain rfl := Option.some.inj hrow
      exact ho hlive hne
    · rw [World.setOrder_of_ne _ _ hid] at hrow
      exact h.rows id' row' hrow hlive hne
  | _ => exact hsame rfl rfl

/-! ## 3. One operation of a call -/

/-- The handler of a call under the condition. -/
abbrev ambiguousHandler (Ex : Exchange ε) : Handler execSig (World ε) :=
  (handler Ex).meeting AmbiguousOnly

/-- Wherever a call is cut short, only its own service's cache can be wrong. -/
abbrev honestOutside (k : Call) : Protocol Unit (World ε) :=
  .alone (HonestFor k.outside) fun _ _ => True

variable {Ex : Exchange ε} {k : Call} {w : World ε} {S : ℕ → String → Prop}

theorem wp_truthful {o : Op} (hS : ∀ svc id, k.outside svc id → S svc id) (h : HonestFor S w)
    (ho : o.Truthful S w) :
    wp (ambiguousHandler Ex) (honestOutside k) () (perform o)
      (fun r w' => HonestFor S w' ∧ w.reported ⊆ w'.reported ∧ ambiguousHandler Ex o w r w')
      w := by
  refine wp_perform_iff.mpr ?_
  rintro w₁ rfl - r w₂ hop
  have hc := handler_change hop.1
  have hw₂ := h.change ho hc
  exact ⟨trivial, hw₂.outside hS, hw₂, reported_change hc, hop⟩

/-- The operations that write neither cache nor table. -/
def Op.Unrecording : Op → Prop
  | setRecord .. | insertOrder _ | updateOrder .. => False
  | _ => True

omit [PyStr] [NumericColumn] in
theorem Op.Reads.unrecording {o : Op} (h : o.Reads) : o.Unrecording := by
  cases o <;> first | exact h.elim | trivial

omit [PyStr] [NumericColumn] in
theorem Op.Unrecording.truthful {o : Op} (h : o.Unrecording) : o.Truthful S w := by
  cases o <;> first | exact h.elim | trivial

theorem wp_unrecording {α : Type} {p : Program α} (hp : p.Within Op.Unrecording)
    (hS : ∀ svc id, k.outside svc id → S svc id) (h : HonestFor S w) :
    wp (ambiguousHandler Ex) (honestOutside k) () p (fun _ w' => HonestFor S w') w := by
  refine wp_within (Protocol.stable_alone (HonestFor S)) ?_ hp h
  rintro o w₁ r w₂ ho hw₁ - hop
  have hw₂ := hw₁.change ho.truthful (handler_change hop.1)
  exact ⟨trivial, hw₂.outside hS, hw₂⟩

omit [PyStr] [NumericColumn] in
theorem outside_true : ∀ svc id, k.outside svc id → True := fun _ _ _ => trivial

/-- Writing the cache of the call's own entry: whatever was there, the world is honest after. -/
theorem wp_setEntry {record : OrderRecord} (h : HonestFor k.elsewhere w)
    (hrecord : record.state.Live → w.Reported k.args.intent.intentId record.state) :
    wp (ambiguousHandler Ex) (honestOutside k) ()
      (perform (.setRecord k.service.id k.args.intent.intentId record))
      (fun r w' => r = .ok () ∧ Honest w' ∧ w.reported ⊆ w'.reported) w := by
  refine wp_mono ?_ (wp_truthful (fun _ _ => Call.outside_elsewhere) h fun _ => hrecord)
  rintro r w₁ ⟨hw₁, hsub, ⟨rfl, rfl⟩, -⟩
  refine ⟨rfl, ⟨fun svc id record' _ hfound hlive => ?_, hw₁.rows⟩, hsub⟩
  by_cases hkey : svc = k.service.id ∧ id = k.args.intent.intentId
  · obtain ⟨rfl, rfl⟩ := hkey
    obtain rfl : record = record' := by simpa [World.setCache] using hfound
    exact hrecord hlive
  · exact hw₁.cache svc id record' hkey hfound hlive

/-- A mark of something reported, or of nothing live. -/
theorem wp_honestMark (record : OrderRecord) (h : Honest w)
    (hrecord : record.state.Live → w.Reported k.args.intent.intentId record.state) :
    wp (ambiguousHandler Ex) (honestOutside k) () (mark k.args.intent.intentId record)
      (fun r w' => Unambiguous r ∧ Honest w' ∧ w.reported ⊆ w'.reported) w := by
  refine wp_mark_of (wp_mono ?_ (wp_truthful outside_true h fun hlive _ => hrecord hlive))
  rintro (e | (_ | _)) w₁ ⟨hw₁, hsub, hop, -⟩
  · refine ⟨?_, hw₁, hsub⟩
    rcases hop with ⟨row, -, hr, -⟩ | ⟨-, hr, -⟩ | ⟨hr, -⟩
    · cases hr
    · cases hr
    · obtain rfl := Except.error.inj hr
      change ¬Ambiguous .databaseError
      decide
  · refine ⟨?_, hw₁, hsub⟩
    rintro (hr | hr) <;> cases hr
  · exact ⟨trivial, hw₁, hsub⟩

theorem wp_honestMarkDurable (record : OrderRecord) (h : Honest w)
    (hrecord : record.state.Live → w.Reported k.args.intent.intentId record.state) :
    wp (ambiguousHandler Ex) (honestOutside k) () (markDurable k.service k.args record)
      (fun r w' => Unambiguous r ∧ Honest w' ∧ w.reported ⊆ w'.reported) w := by
  unfold markDurable
  split
  · exact wp_honestMark record h hrecord
  · exact ⟨trivial, h, List.Subset.refl _⟩

/-! ## 4. The program -/

/-- What a call leaves: an honest world, and a record that is reported if it is live. -/
def Confirmed (k : Call) (r : Except Exc OrderRecord) (w : World ε) : Prop :=
  Honest w ∧ ∀ record, r = .ok record → record.state.Live →
    w.Reported k.args.intent.intentId record.state

omit [PyStr] [NumericColumn] in
theorem Confirmed.error {e : Exc} (h : Honest w) : Confirmed k (.error e) w :=
  ⟨h, fun _ hr => by cases hr⟩

omit [PyStr] [NumericColumn] in
theorem not_live_unknown : ¬OrderState.UNKNOWN.Live := by decide

/-- **Reconciliation**: a settled row was reported when it was marked, an answer is a report, and
UNKNOWN claims nothing. -/
theorem wp_honestReconcile (expected : Option OrderIntent) (h : Honest w) :
    wp (ambiguousHandler Ex) (honestOutside k) ()
      (reconcileExisting k.args.intent.intentId expected)
      (fun r w' => Honest w' ∧ ∀ record, r = .ok (some record) → record.state.Live →
        w'.Reported k.args.intent.intentId record.state) w := by
  refine wp_reconcile_of
    (F := fun row w => Honest w ∧ w.orders k.args.intent.intentId = some row) ?_ ?_ ?_ ?_
  · refine wp_mono ?_ (wp_truthful outside_true h trivial)
    rintro (e | (_ | row)) w₁ ⟨hw₁, -, ⟨hr, rfl⟩, -⟩
    · exact ⟨hw₁, fun _ hr => by cases hr⟩
    · exact ⟨hw₁, fun _ hr => by cases hr⟩
    · refine ⟨hw₁, ?_⟩
      rcases hr with hr | hr
      · exact (Except.ok.inj hr).symm
      · cases hr
  · rintro row e w₁ ⟨hw₁, -⟩ -
    exact ⟨hw₁, fun _ hr => by cases hr⟩
  · rintro row w₁ ⟨hw₁, hrow⟩ - hne -
    refine ⟨hw₁, ?_⟩
    rintro record ⟨rfl⟩ hlive
    exact hw₁.rows _ row hrow hlive hne
  · rintro row w₁ ⟨hw₁, -⟩ - -
    refine wp_resolve_of (wp_mono ?_ (wp_truthful outside_true hw₁ trivial))
    rintro (e | (_ | remote)) w₂ ⟨hw₂, -, ⟨v, -, hw⟩, -⟩
    · exact ⟨hw₂, fun _ hr => by cases hr⟩
    · refine wp_mono ?_ (wp_honestMark { toRecord row with state := .UNKNOWN } hw₂
        fun hlive => absurd hlive not_live_unknown)
      rintro (e | u) w₃ ⟨-, hw₃, -⟩
      · exact ⟨hw₃, fun _ hr => by cases hr⟩
      · refine ⟨hw₃, ?_⟩
        rintro record ⟨rfl⟩ hlive
        exact absurd hlive not_live_unknown
    · have hrep : w₂.Reported k.args.intent.intentId remote.state := by
        rw [hw]
        exact ⟨remote, List.mem_cons_self .., rfl⟩
      refine wp_mono ?_ (wp_honestMark remote hw₂ fun _ => hrep)
      rintro (e | u) w₃ ⟨-, hw₃, hsub⟩
      · exact ⟨hw₃, fun _ hr => by cases hr⟩
      · refine ⟨hw₃, ?_⟩
        rintro record ⟨rfl⟩ -
        exact hrep.mono hsub

theorem wp_honestAdopt {record : OrderRecord} (h : Honest w)
    (hrecord : record.state.Live → w.Reported k.args.intent.intentId record.state) :
    wp (ambiguousHandler Ex) (honestOutside k) () (adopt k.service k.args record)
      (Confirmed k) w := by
  refine wp_bind.mpr (wp_mono ?_ (wp_setEntry (h.mono fun _ _ _ => trivial) hrecord))
  rintro (e | u) w₁ ⟨hr, hw₁, hsub⟩
  · cases hr
  · refine ⟨hw₁, ?_⟩
    rintro record' ⟨rfl⟩ hlive
    exact (hrecord hlive).mono hsub

/-- **The side effect.**  While it runs the call's own cache entry says SUBMITTED; an answer or an
ambiguous exception replaces it, and there is no other way out. -/
theorem wp_honestSideEffect {n : OrderIntent} {record : OrderRecord}
    (hid : n.intentId = k.args.intent.intentId) (h : Honest w) :
    wp (ambiguousHandler Ex) (honestOutside k) () (sideEffect k.service k.args n record)
      (Confirmed k) w := by
  refine wp_sideEffect_of (P := HonestFor k.elsewhere)
    (R := fun actual w => HonestFor k.elsewhere w ∧
      w.Reported k.args.intent.intentId actual.state)
    (E := fun e w => (Ambiguous e ∧ HonestFor k.elsewhere w) ∨ (¬Ambiguous e ∧ Honest w))
    ?_ ?_ ?_ ?_ ?_ ?_
  · refine wp_mono ?_ (wp_truthful (S := k.elsewhere) (fun _ _ => Call.outside_elsewhere)
      (h.mono fun _ _ _ => trivial) fun hne => absurd ⟨rfl, rfl⟩ hne)
    rintro (e | u) w₁ ⟨hw₁, -, ⟨hr, -⟩, -⟩
    · cases hr
    · exact hw₁
  · intro w₁ hw₁
    unfold checkFence
    split
    · refine wp_mono ?_ (wp_truthful (fun _ _ => Call.outside_elsewhere) hw₁ trivial)
      rintro (e | u) w₂ ⟨hw₂, -, -, hcond⟩
      · exact Or.inl ⟨hcond, hw₂⟩
      · exact hw₂
    · exact hw₁
  · intro w₁ hw₁
    refine wp_mono ?_ (wp_truthful (fun _ _ => Call.outside_elsewhere) hw₁ trivial)
    rintro (e | actual) w₂ ⟨hw₂, -, ⟨v, -, hw⟩, hcond⟩
    · exact Or.inl ⟨hcond, hw₂⟩
    · refine ⟨hw₂, actual, ?_, rfl⟩
      rw [hw, ← hid]
      exact List.mem_cons_self ..
  · rintro actual w₁ ⟨hw₁, hrep⟩
    refine wp_mono ?_ (wp_setEntry hw₁ fun _ => hrep)
    rintro (e | u) w₂ ⟨hr, hw₂, hsub⟩
    · cases hr
    · refine wp_mono ?_ (wp_honestMarkDurable actual hw₂ fun _ => hrep.mono hsub)
      rintro (e | u) w₃ ⟨hun, hw₃, hsub'⟩
      · exact Or.inr ⟨hun, hw₃⟩
      · refine ⟨hw₃, ?_⟩
        rintro record' ⟨rfl⟩ -
        exact (hrep.mono hsub).mono hsub'
  · intro e w₁ hE hamb
    have hw₁ : HonestFor k.elsewhere w₁ := by
      rcases hE with ⟨-, hw₁⟩ | ⟨hnot, -⟩
      · exact hw₁
      · exact absurd hamb hnot
    refine wp_handleAmbiguous_of (wp_mono ?_ (wp_setEntry hw₁ fun hlive =>
      absurd hlive not_live_unknown))
    rintro (e | u) w₂ ⟨-, hw₂, -⟩
    · exact .error hw₂
    refine wp_mono ?_ (wp_honestMarkDurable { record with state := .UNKNOWN } hw₂
      fun hlive => absurd hlive not_live_unknown)
    rintro (e | u) w₃ ⟨-, hw₃, -⟩
    · exact .error hw₃
    refine wp_mono ?_ (wp_unrecording (within_isolate (fun _ => trivial) trivial)
      outside_true hw₃)
    rintro (e | u) w₄ hw₄
    · exact .error hw₄
    · refine ⟨hw₄, ?_⟩
      rintro record' ⟨rfl⟩ hlive
      exact absurd hlive not_live_unknown
  · rintro e w₁ (⟨hamb, -⟩ | ⟨-, hw₁⟩) hnot
    · exact absurd hamb hnot
    · exact .error hw₁

/-- **A call leaves an honest world** and returns no live record that is not reported. -/
theorem wp_honestSubmit (h : Honest w) :
    wp (ambiguousHandler Ex) (honestOutside k) () (k.service.submit k.args) (Confirmed k) w := by
  refine wp_submit_of (P := Honest) ?_ ?_ ?_ ?_ ?_ ?_ ?_
  · exact fun w hp hw => wp_unrecording (hp.mono fun _ => Op.Reads.unrecording) outside_true hw
  · exact wp_unrecording (Prog.within_perform.mpr trivial) outside_true h
  · rintro r w₁ ⟨hw₁, hrep⟩
    refine wp_mono ?_ (wp_truthful outside_true hw₁ trivial)
    rintro (e | u) w₂ ⟨hw₂, hsub, -⟩
    · exact .error hw₂
    · exact ⟨hw₂, fun record hr hlive => (hrep record hr hlive).mono hsub⟩
  · exact fun e w₁ hw₁ => .error hw₁
  · intro w₁ hw₁
    refine wp_mono ?_ (wp_truthful outside_true hw₁ trivial)
    rintro r w₂ ⟨hw₂, -, ⟨rfl, rfl⟩, -⟩
    refine ⟨hw₂, fun record hr => ⟨hw₂, ?_⟩⟩
    rintro record' ⟨rfl⟩ hlive
    exact hw₂.cache _ _ record trivial (Except.ok.inj hr) hlive
  · intro w₁ hw₁ _
    refine wp_mono ?_ (wp_honestReconcile _ hw₁)
    rintro (e | (_ | existing)) w₂ ⟨hw₂, hrep⟩
    · exact .error hw₂
    · exact hw₂
    · exact wp_honestAdopt hw₂ (hrep existing rfl)
  · rintro n w₁ hw₁ ⟨filters, cap, hn⟩
    obtain ⟨qty, price, -, -, heq⟩ := normalizeAndValidate_eq_ok hn
    have hid : n.intentId = k.args.intent.intentId := by rw [heq]
    split
    · refine wp_reserveAndSend_of (P := Honest) (O := Honest)
        (wp_reserve_of ?_ ?_ ?_ hw₁) ?_ ?_ ?_
      · exact fun w hw => wp_unrecording (Prog.within_perform.mpr trivial) outside_true hw
      · intro w hw
        refine wp_mono ?_ (wp_truthful (o := .insertOrder (newRow n)) outside_true hw rfl)
        rintro (e | u) w₂ ⟨hw₂, -, -⟩ <;> exact hw₂
      · exact fun w hw => wp_unrecording (Prog.within_perform.mpr trivial) outside_true hw
      · rintro e w₂ (hw₂ | hw₂) <;> exact .error hw₂
      · exact fun record w hw => wp_honestSideEffect hid hw
      · intro w hw
        refine wp_bind.mpr (wp_mono ?_ (wp_honestReconcile _ hw))
        rintro (e | (_ | resolved)) w₂ ⟨hw₂, hrep⟩
        · exact .error hw₂
        · exact .error hw₂
        · exact wp_honestAdopt hw₂ (hrep resolved rfl)
    · exact wp_honestSideEffect hid hw₁

/-! ## 5. The result -/

/-- The histories whose fence and exchange only raise ambiguous exceptions. -/
abbrev ambiguousHistories (Ex : Exchange ε) :
    Session.System execSig (World ε) OrderRecord Call Between :=
  (sequential Ex).meeting fun _ => AmbiguousOnly

/-- **Honesty lasts**, through calls, crashes, restarts and everything in between. -/
theorem honest_session {w w' : World ε} {tr : List (Event execSig OrderRecord Call Between)}
    (h : Session (ambiguousHistories Ex) w tr w') (hw : Honest w) : Honest w' := by
  refine h.preserves ?_ ?_ ?_ hw
  · intro k w r w' hw hrun
    exact (wp_runs hrun (wp_honestSubmit hw) (hw.outside outside_true)).2.2.1
  · intro k w p w' hw hexec
    exact (wp_exec hexec (wp_honestSubmit hw) (hw.outside outside_true)).1.restarted
  · rintro l w w' hw hhap
    cases hhap with
    | restart service => exact HonestFor.restarted (hw.mono fun _ _ _ => trivial)
    | clear iso account symbol => exact ⟨hw.cache, hw.rows⟩
    | exchange venue => exact ⟨hw.cache, hw.rows⟩

omit [PyStr] [NumericColumn] in
theorem honest_empty (venue : ε) : Honest (World.empty venue) :=
  ⟨fun _ _ _ _ h => by simp [World.empty] at h, fun _ _ h => by simp [World.empty] at h⟩

/-- **No phantoms where only ambiguous exceptions follow the recording.** -/
theorem no_phantoms_of_ambiguous (Ex : Exchange ε) (venue : ε) :
    NoPhantoms (ambiguousHistories Ex) (World.empty venue) := by
  intro tr w k e w₁ tr' w₂ k' record w₃ htr hraise _ _ htr' _ _ hrun hlive
  have hw : Honest w := honest_session htr (honest_empty venue)
  have hw₁ : Honest w₁ :=
    (wp_runs hraise (wp_honestSubmit hw) (hw.outside outside_true)).2.2.1
  have hw₂ : Honest w₂ := honest_session htr' hw₁
  have hconfirmed := (wp_runs hrun (wp_honestSubmit hw₂) (hw₂.outside outside_true)).2.2
  exact hconfirmed.2 record rfl hlive

end Histories

/-! ## 6. A phantom -/

section RateLimited

attribute [local instance] asciiStr exactColumn

/-- An exchange that is over its request limit. -/
def Venue.limiting : Venue Unit where
  submit := fun _ e => (.error (.other "ExchangeRateLimited"), e)
  get := fun _ _ e => (.ok none, e)

def limitedCall : Call where
  service := .process false
  args := .limitBuy "i-1"

def limitedScript : Script execSig (World Unit) := cooperate .plain .limiting

/-- The call that raises. -/
def limited : Except Exc OrderRecord × World Unit :=
  (limitedCall.service.submit limitedCall.args).play limitedScript (World.empty ())

/-- The same call again. -/
def limitedAgain : Except Exc OrderRecord × World Unit :=
  (limitedCall.service.submit limitedCall.args).play limitedScript limited.2

/-- **An order that was never accepted is returned as SUBMITTED.** -/
theorem phantom_order : ¬NoPhantoms (sequential (Exchange.any Unit)) (World.empty ()) := by
  intro h
  have hpicks : limitedScript.Picks (handler (Exchange.any Unit)) :=
    cooperate_picks (Venue.picks_any _) .plain
  have hraise : limited.1 = .error (.other "ExchangeRateLimited") := by decide +kernel
  have hrun : Runs (handler (Exchange.any Unit))
      (limitedCall.service.submit limitedCall.args) (World.empty ()) limited.1 limited.2 :=
    runs_play hpicks _ _
  rw [hraise] at hrun
  have hlive : returnedState limitedAgain.1 = some .SUBMITTED := by decide +kernel
  obtain ⟨record, hrecord, hstate⟩ := returnedState_eq_some hlive
  have hagain : Runs (handler (Exchange.any Unit))
      (limitedCall.service.submit limitedCall.args) limited.2 limitedAgain.1 limitedAgain.2 :=
    runs_play hpicks _ _
  rw [hrecord] at hagain
  have hrecorded : limited.2.Recorded limitedCall := by
    refine Or.inr ?_
    decide +kernel
  obtain ⟨record', hmem, -⟩ := h [] _ limitedCall _ limited.2 [] limited.2 limitedCall record
    limitedAgain.2 (.nil _) hrun (by decide) hrecorded (.nil _) rfl rfl hagain
    (by rw [hstate]; decide)
  have hnothing : limitedAgain.2.reported = [] := by
    have hempty : limitedAgain.2.reported.isEmpty = true := by decide +kernel
    exact List.isEmpty_iff.mp hempty
  rw [hnothing] at hmem
  exact absurd hmem List.not_mem_nil

end RateLimited

end Kripto.Execution
