/-
# Are the platform's own orders recognised?

An order's client id is chosen by `normalize_and_validate`, written to the ledger by
`reserve_before_side_effect`, sent by the exchange adapter, and recognised again, by its prefix,
in `PrivateStreamProjector.project`.  The ledger alone would supply the prefix `ctp-`, and never
does: normalization has put the bare intent id there before.

* `own_orders_recognised_iff`: in every interleaving of workers, an order that is sent is
  recognised in all its later reports, and under the client id its row was committed with,
  exactly if the client id the caller gave -- the intent id where none was given -- has the
  prefix.

`own_order_foreign` is an order of an intent called i-1.
-/
import Kripto.Execution.AtMostOnce
import Kripto.Stream.Independence

namespace Kripto.Stream

open Effect Execution PrivateStreamProjector
open Execution.PersistentIntentLedger (newRow)

/-! ## 1. Client ids -/

/-- The client id normalization leaves in an intent. -/
def chosenId (intent : OrderIntent) : String := orText intent.clientOrderId intent.intentId

/-- The client id the exchange receives: `intent.client_order_id or intent.intent_id`, in every
adapter. -/
def receivedId (n : OrderIntent) : String := orText n.clientOrderId n.intentId

/-- A projector with its default prefix, after some events. -/
def projectorAfter (events : List UserEvent) : PrivateStreamProjector :=
  leaves project (fresh defaultPrefix) events

theorem clientOrderPrefix_leaves (s : PrivateStreamProjector) (events : List UserEvent) :
    (leaves project s events).clientOrderPrefix = s.clientOrderPrefix := by
  induction events generalizing s with
  | nil => rfl
  | cons k events ih => rw [leaves_cons, ih, clientOrderPrefix_project]

/-- The platform's prefix. -/
def HasPrefix (clientOrderId : String) : Prop :=
  (fresh defaultPrefix).platform clientOrderId = true

instance (clientOrderId : String) : Decidable (HasPrefix clientOrderId) :=
  inferInstanceAs (Decidable (_ = _))

theorem platform_projectorAfter (events : List UserEvent) (clientOrderId : String) :
    (projectorAfter events).platform clientOrderId = true ↔ HasPrefix clientOrderId := by
  unfold HasPrefix PrivateStreamProjector.platform projectorAfter
  rw [clientOrderPrefix_leaves]

theorem HasPrefix.ne_empty {clientOrderId : String} (h : HasPrefix clientOrderId) :
    clientOrderId ≠ "" := by
  rintro rfl
  exact absurd h (by decide)

/-! ## 2. Jobs and commits -/

/-- What a worker is to submit, and by which service. -/
structure Job where
  service : ExecutionService
  args : SubmitArgs

/-- **The submitters**: each works on its job, again and again if killed or restarted.  The
surroundings may change anything in between. -/
def submitters {ε ι : Type} [PyStr] [NumericColumn] (Ex : Exchange ε) (job : ι → Job) :
    Pool.System ι execSig (World ε) OrderRecord where
  handler := fun _ => handler Ex
  start := fun t p => p = (job t).service.submit (job t).args
  env := fun _ _ => True

/-- The row each worker has committed last. -/
abbrev Commits (ι : Type) : Type := ι → Option OrderRow

section Notes

variable {ι : Type} [DecidableEq ι]

/-- A committed insert. -/
def noteCommit (t : ι) : (o : Op) → execSig.Ans o → Commits ι → Commits ι
  | .insertOrder row, .ok _, g => Function.update g t (some row)
  | _, _, g => g

theorem noteCommit_quiet {o : Op} (ho : o.Quiet) (t : ι) (r : execSig.Ans o) (g : Commits ι) :
    noteCommit t o r g = g := by
  cases o with
  | insertOrder row => exact ho.elim
  | _ => rfl

theorem noteCommit_of_ne {t u : ι} (hu : u ≠ t) (o : Op) (r : execSig.Ans o) (g : Commits ι) :
    noteCommit t o r g u = g u := by
  cases o with
  | insertOrder row =>
    cases r with
    | ok x => exact Function.update_of_ne hu _ _
    | error e => rfl
  | _ => rfl

end Notes

/-- **An order is recognised**: the committed row, where the service has a ledger, is of this
intent and under the client id the exchange receives, and no report with that id is ever one of
an unknown order. -/
structure Recognised (service : ExecutionService) (committed : Option OrderRow)
    (n : OrderIntent) : Prop where
  row : service.persistentIntents = true → ∃ row, committed = some row ∧
    row.intentId = n.intentId ∧ row.clientOrderId = receivedId n
  reports : ∀ (events : List UserEvent) (event : ExecutionReport),
    event.clientOrderId = receivedId n →
      ((projectorAfter events).projectReport event).1.classification ≠ .UNKNOWN_ORDER

/-! ## 3. What is sent -/

/-- What is known of the order `n` when a worker sends it: the client id is the chosen one, and
the row committed is its own. -/
structure Prepared (k : Job) (committed : Option OrderRow) (n : OrderIntent) : Prop where
  intentId : n.intentId = k.args.intent.intentId
  clientOrderId : n.clientOrderId = some (chosenId k.args.intent)
  row : k.service.persistentIntents = true → committed = some (newRow n)

/-- The exchange receives the chosen id. -/
theorem Prepared.receivedId_eq {k : Job} {committed : Option OrderRow} {n : OrderIntent}
    (h : Prepared k committed n) : receivedId n = chosenId k.args.intent := by
  rw [receivedId, h.clientOrderId, h.intentId, chosenId, orText_orText]

/-- **When such an order is recognised.** -/
theorem Prepared.recognised_iff {k : Job} {committed : Option OrderRow} {n : OrderIntent}
    (h : Prepared k committed n) :
    Recognised k.service committed n ↔ HasPrefix (chosenId k.args.intent) := by
  constructor
  · intro hrec
    by_contra hnot
    have hreport := hrec.reports []
      ⟨"", receivedId n, "", "", "", "", "", 0, 0, 0, 0, none, none, 0, none⟩ rfl
    rw [Ne, unknown_order_iff, Bool.not_eq_false, platform_projectorAfter,
      h.receivedId_eq] at hreport
    exact hnot hreport
  · intro hstarts
    constructor
    · intro hledger
      refine ⟨newRow n, h.row hledger, rfl, ?_⟩
      rw [h.receivedId_eq, newRow, h.clientOrderId]
      simp [orText, hstarts.ne_empty]
    · intro events event hid
      rw [Ne, unknown_order_iff, Bool.not_eq_false, platform_projectorAfter, hid, h.receivedId_eq]
      exact hstarts

/-! ## 4. The workers -/

section Workers

variable {ε ι : Type}

/-- **The protocol**: nobody touches what another worker has committed, and what is sent is
prepared. -/
def committing (job : ι → Job) : Protocol ι (World ε × Commits ι) where
  inv := fun _ => True
  rely := fun t s s' => s'.2 t = s.2 t
  guar := fun t s s' => (∀ u, u ≠ t → s'.2 u = s.2 u) ∧
    ∀ n, s'.1.submitted = n :: s.1.submitted → Prepared (job t) (s.2 t) n
  rely_refl := fun _ _ => rfl
  rely_trans := fun _ _ _ _ h h' => h'.trans h
  compat := fun htu _ _ hg => hg.1 _ (Ne.symm htu)

variable [DecidableEq ι] [PyStr] [NumericColumn]

/-- The handler with the commits kept beside the world. -/
abbrev noting (Ex : Exchange ε) (job : ι → Job) (t : ι) : Handler execSig (World ε × Commits ι) :=
  ((submitters Ex job).withGhost noteCommit).handler t

variable {Ex : Exchange ε} {job : ι → Job} {t : ι} {s : World ε × Commits ι}

/-- A quiet program commits nothing and sends nothing. -/
theorem wp_committing_quiet {α : Type} {p : Program α} {P : Option OrderRow → Prop}
    (hp : p.Within Op.Quiet) (h : P (s.2 t)) :
    wp (noting Ex job t) (committing job) t p (fun _ s' => P (s'.2 t)) s := by
  refine wp_within (P := fun s' : World ε × Commits ι => P (s'.2 t)) ?_ ?_ hp h
  · intro s₁ s₂ h₁ hrely _
    rwa [show s₂.2 t = s₁.2 t from hrely]
  · rintro o s₁ r s₂ ho h₁ - ⟨hop, hnote⟩
    rw [noteCommit_quiet ho] at hnote
    refine ⟨⟨fun u _ => by rw [hnote], fun n hn => ?_⟩, trivial, by rwa [hnote]⟩
    rw [quiet_submitted ho (handler_change hop)] at hn
    simp at hn

/-- The insert is noted. -/
theorem wp_committing_insert (row : OrderRow) :
    wp (noting Ex job t) (committing job) t (perform (.insertOrder row))
      (fun r s' => r = .ok () → s'.2 t = some row) s := by
  refine wp_perform_iff.mpr ?_
  rintro s₁ - - r s₂ ⟨hop, hnote⟩
  replace hop : handler Ex (.insertOrder row) s₁.1 r s₂.1 := hop
  refine ⟨⟨fun u hu => ?_, fun n hn => ?_⟩, trivial, ?_⟩
  · rw [hnote, noteCommit_of_ne hu]
  · have hsame : s₂.1.submitted = s₁.1.submitted := by
      rcases hop with ⟨-, -, hw⟩ | ⟨-, hw⟩ <;> rw [hw]
      rfl
    rw [hsame] at hn
    simp at hn
  · rintro rfl
    rw [hnote]
    exact Function.update_self ..

/-- A prepared order may be sent. -/
theorem wp_committing_send {n : OrderIntent} (h : Prepared (job t) (s.2 t) n) :
    wp (noting Ex job t) (committing job) t (perform (.submitOrder n)) (fun _ _ => True) s := by
  refine wp_perform_iff.mpr ?_
  rintro s₁ hrely - r s₂ ⟨⟨v, -, hw⟩, hnote⟩
  have hg : s₂.2 = s₁.2 := hnote
  refine ⟨⟨fun u _ => by rw [hg], fun n' hn' => ?_⟩, trivial, trivial⟩
  rw [hw] at hn'
  obtain rfl : n = n' := (List.cons.inj hn').1
  rwa [show s₁.2 t = s.2 t from hrely]

/-- **`submit` sends nothing unprepared.** -/
theorem wp_committing_submit (s : World ε × Commits ι) :
    wp (noting Ex job t) (committing job) t ((job t).service.submit (job t).args)
      (fun _ _ => True) s := by
  refine wp_submit_licensed (O := fun n s => Prepared (job t) (s.2 t) n) ?_ ?_ ?_ ?_
  · exact fun s hp => wp_committing_quiet (P := fun _ => True) hp trivial
  · exact fun n s hp h => wp_committing_quiet (P := fun row => Prepared (job t) row n) hp h
  · exact fun n s h => wp_committing_send h
  · rintro n s ⟨filters, cap, hnormalized⟩
    obtain ⟨qty, price, -, -, rfl⟩ := normalizeAndValidate_eq_ok hnormalized
    split
    · refine wp_mono ?_ (wp_committing_insert _)
      exact fun r s' hrow hr => ⟨rfl, rfl, fun _ => hrow hr⟩
    · rename_i hledger
      exact ⟨rfl, rfl, fun h => absurd h hledger⟩

theorem submitters_obey (Ex : Exchange ε) (job : ι → Job) :
    Pool.Obeys ((submitters Ex job).withGhost noteCommit) (committing job) where
  start := by
    rintro t p s rfl -
    exact wp_committing_submit s
  env := fun s s' h _ => ⟨trivial, fun t => congrFun h.2 t⟩

/-! ## 5. The result -/

/-- **When an order that is sent is recognised**: exactly when the chosen client id has the
platform's prefix.  For every worker in every pool the submitters can reach, with the row the
worker has committed beside it. -/
theorem own_orders_recognised_iff (Ex : Exchange ε) (job : ι → Job) (w : World ε)
    (c : Pool ι execSig (World ε × Commits ι) OrderRecord)
    (hreach : Pool.Reaches ((submitters Ex job).withGhost noteCommit)
      (Pool.idle (w, fun _ => none)) c)
    (t : ι) (n : OrderIntent) (next : execSig.Ans (.submitOrder n) → Program OrderRecord)
    (hnext : c.threads t = some (.op (.submitOrder n) next))
    (r : execSig.Ans (.submitOrder n)) (w' : World ε)
    (hsend : handler Ex (.submitOrder n) c.shared.1 r w') :
    Recognised (job t).service (c.shared.2 t) n ↔ HasPrefix (chosenId (job t).args.intent) := by
  have hsafe := Pool.sound (submitters_obey Ex job) (Pool.safe_idle trivial) hreach
  have hop : ((submitters Ex job).withGhost noteCommit).handler t (.submitOrder n) c.shared r
      (w', c.shared.2) := ⟨hsend, rfl⟩
  obtain ⟨⟨-, hprepared⟩, -, -⟩ := hsafe.act hnext hop
  obtain ⟨v, -, hw'⟩ := hsend
  exact (hprepared n (by rw [hw']; rfl)).recognised_iff

end Workers

/-! ## 6. An intent without the prefix -/

section Foreign

attribute [local instance] asciiStr exactColumn

/-- One process, asked to buy one unit under an intent id. -/
def buying (id : String) (_ : Unit) : Job := ⟨.process false, .limitBuy id⟩

/-- The process about to send. -/
def aboutToSend (id : String) : Pool Unit execSig (World Unit × Commits Unit) OrderRecord :=
  Pool.play (fun t => Pool.noting (cooperate .plain .acknowledging) (noteCommit t))
    (fun t => (buying id t).service.submit (buying id t).args)
    (Pool.idle (World.empty (), fun _ => none)) (.spawn () () :: List.replicate 12 (.act ()))

theorem reaches_aboutToSend (id : String) :
    Pool.Reaches ((submitters (Exchange.any Unit) (buying id)).withGhost noteCommit)
      (Pool.idle (World.empty (), fun _ => none)) (aboutToSend id) := by
  have hpicks : ∀ t : Unit, (cooperate .plain .acknowledging).Picks
      ((submitters (Exchange.any Unit) (buying id)).handler t) :=
    fun _ => cooperate_picks (Venue.picks_any _) .plain
  have hstart : ∀ t k : Unit, ((submitters (Exchange.any Unit) (buying id)).withGhost
      noteCommit).start t ((buying id k).service.submit (buying id k).args) := fun _ _ => rfl
  exact Pool.reaches_play (Pool.picks_noting hpicks noteCommit) hstart _ _

/-- What it sends. -/
def bought (id : String) : OrderIntent :=
  { (SubmitArgs.limitBuy id).intent with clientOrderId := some id }

theorem eq_op_aboutToSend (id : String)
    (h : ((aboutToSend id).threads ()).bind sending = some (bought id)) :
    ∃ next, (aboutToSend id).threads () = some (.op (.submitOrder (bought id)) next) := by
  obtain ⟨p, hp, hsending⟩ := Option.bind_eq_some_iff.mp h
  obtain ⟨next, rfl⟩ := eq_op_of_sending hsending
  exact ⟨next, hp⟩

/-- An intent called ctp-1. -/
theorem own_orders_recognised_iff_ctp :
    Recognised (.process false) ((aboutToSend "ctp-1").shared.2 ()) (bought "ctp-1") ↔
      HasPrefix (chosenId (SubmitArgs.limitBuy "ctp-1").intent) := by
  obtain ⟨next, hnext⟩ := eq_op_aboutToSend "ctp-1" (by decide +kernel)
  exact own_orders_recognised_iff (Exchange.any Unit) (buying "ctp-1") (World.empty ())
    (aboutToSend "ctp-1") (reaches_aboutToSend "ctp-1") () (bought "ctp-1") next hnext
    (.error .timeoutError) _ ⟨(), trivial, rfl⟩

/-- **An order of the platform is taken for somebody else's.**  The intent i-1, without a client
id of its own, is sent as i-1, and its first report is one of an unknown order. -/
theorem own_order_foreign :
    ¬ ∀ (job : Unit → Job) (c : Pool Unit execSig (World Unit × Commits Unit) OrderRecord)
      (n : OrderIntent) (next : execSig.Ans (.submitOrder n) → Program OrderRecord)
      (r : execSig.Ans (.submitOrder n)) (w' : World Unit),
      Pool.Reaches ((submitters (Exchange.any Unit) job).withGhost noteCommit)
        (Pool.idle (World.empty (), fun _ => none)) c →
      c.threads () = some (.op (.submitOrder n) next) →
      handler (Exchange.any Unit) (.submitOrder n) c.shared.1 r w' →
      Recognised (job ()).service (c.shared.2 ()) n := by
  intro h
  obtain ⟨next, hnext⟩ := eq_op_aboutToSend "i-1" (by decide +kernel)
  have hrec := h (buying "i-1") (aboutToSend "i-1") (bought "i-1") next (.error .timeoutError) _
    (reaches_aboutToSend "i-1") hnext ⟨(), trivial, rfl⟩
  have hreport := hrec.reports []
    ⟨"BTCUSDT", "i-1", "BUY", "LIMIT", "NEW", "NEW", "x-1", 0, 0, 0, 0, none, none, 1000, none⟩
    (by decide)
  exact hreport (by decide)

end Foreign

end Kripto.Stream
