/-
# Live capital behind a LIVE order

In LIVE mode `submit` looks its intent up in the reservations and compares the reported balance
with their sum.  Here the reservations are a `CapitalReservations`, so the two answers are
computed, time passes during and between calls, and other calls reserve, release and prune.

Neither answer depends on the time: `items` and `validate_live_balance` still see what has
expired, until some call prunes it.  So an order can go out under a reservation that is over;
`live_capital_iff` says that this is all that can be missing.
-/
import Kripto.Execution.Script
import Kripto.Execution.ReservationMeaning

namespace Kripto.Execution

open Effect PersistentIntentLedger
open ExecutionService hiding id
open Python (Times)

/-! ## 1. Reservations and time -/

/-- The reservations, the time, and the balances the exchange reported last. -/
structure Capital where
  items : CapitalReservations.Items
  clock : ℚ
  reported : List (String × ℚ)

namespace Capital

/-- The intent holds a reservation that has not expired, and the balance reported for its asset
covers the unexpired reservations of that asset. -/
def Backs [PyStr] (c : Capital) (intentId : String) : Prop :=
  ∃ r, CapitalReservations.live c.items intentId c.clock = some r ∧
    CapitalReservations.totalReserved r.asset (CapitalReservations.pruneLocked c.clock c.items)
      ≤ (c.reported.lookup r.asset).getD 0

/-- What the operations of `submit` are answered, and the balances reported after them. -/
def Serves [PyStr] (c : Capital) : (o : Op) → execSig.Ans o → List (String × ℚ) → Prop
  | .reservationItems intentId, r, reported =>
      r = .ok (decide (intentId ∈ c.items)) ∧ reported = c.reported
  | .validateLiveBalance intentId balances, r, reported =>
      r = CapitalReservations.validateLiveBalance intentId balances c.items ∧
        reported = c.reported
  | .getBalance, r, reported =>
      r = .ok reported ∨ ((∃ e, r = .error e) ∧ reported = c.reported)
  | _, _, reported => reported = c.reported

end Capital

/-- A call of a service in LIVE mode with a `CapitalReservations`. -/
structure LiveCall extends Call where
  live : args.mode = .LIVE
  reserves : service.reservations = some true

/-- What happens between calls. -/
inductive CapitalCall
  | reserve (a : ReserveArgs)
  | release (intentId : String)
  | prune
  | elsewhere

section Histories

variable {ε : Type} [PyStr] [NumericColumn]

/-- The operations of `submit`.  Time may pass with each of them. -/
def capitalHandler (Ex : Exchange ε) : Handler execSig (World ε × Capital) := fun o s r s' =>
  handler Ex o s.1 r s'.1 ∧ s'.2.items = s.2.items ∧ s.2.clock ≤ s'.2.clock ∧
    s.2.Serves o r s'.2.reported

omit [NumericColumn] in
/-- The calls of others, at the time the clock shows; anything but the reservations may change
elsewhere. -/
inductive CapitalHappens [Times ℚ] : CapitalCall → World ε × Capital → World ε × Capital → Prop
  | reserve (a : ReserveArgs) (w : World ε) (c : Capital) :
      CapitalHappens (.reserve a) (w, c)
        (w, { c with items := (CapitalReservations.reserve a c.clock c.items).2 })
  | release (intentId : String) (w : World ε) (c : Capital) :
      CapitalHappens (.release intentId) (w, c)
        (w, { c with items := (CapitalReservations.release intentId c.items).2 })
  | prune (w : World ε) (c : Capital) :
      CapitalHappens .prune (w, c)
        (w, { c with items := CapitalReservations.pruneLocked c.clock c.items })
  | elsewhere (w w' : World ε) (c : Capital) (clock : ℚ) (h : c.clock ≤ clock) :
      CapitalHappens .elsewhere (w, c) (w', { c with clock := clock })

/-- **Histories** of LIVE calls, reservations and releases.  A crash takes the reservations
with it. -/
def liveHistories [Times ℚ] (Ex : Exchange ε) :
    Session.System execSig (World ε × Capital) OrderRecord LiveCall CapitalCall where
  body := fun k => k.service.submit k.args
  handler := fun _ => capitalHandler Ex
  lose := fun k s => (s.1.restarted k.service, { s.2 with items := ∅ })
  idle := CapitalHappens

/-! ## 2. What the guards establish -/

/-- What the guards see of an intent: a reservation, and its asset covered. -/
def Capital.Admits (c : Capital) (intentId : String) : Prop :=
  ∃ r, c.items.lookup intentId = some r ∧
    CapitalReservations.totalReserved r.asset c.items ≤ (c.reported.lookup r.asset).getD 0

/-- **What each operation respects**: an order that is not reduce-only is sent only under what
the guards see. -/
def SendsAdmitted (s s' : World ε × Capital) : Prop :=
  ∀ n, s'.1.submitted = n :: s.1.submitted → n.reduceOnly = false → s.2.Admits n.intentId

/-- The protocol of a call that runs alone and respects that. -/
abbrev admitting : Protocol Unit (World ε × Capital) := .alone (fun _ => True) SendsAdmitted

variable {Ex : Exchange ε} {s : World ε × Capital} {α : Type}

omit [NumericColumn] in
theorem sendsAdmitted_of_same {s s' : World ε × Capital}
    (h : s'.1.submitted = s.1.submitted) : SendsAdmitted s s' := by
  intro n hn
  rw [h] at hn
  simp at hn

/-- Only `submit_order` sends. -/
theorem submitted_of_ne {o : Op} {w w' : World ε} {r : execSig.Ans o}
    (h : handler Ex o w r w') (ho : ∀ n, o ≠ .submitOrder n) : w'.submitted = w.submitted := by
  cases handler_change h with
  | sent => exact absurd rfl (ho _)
  | _ => rfl

/-- A program that sends nothing respects it. -/
theorem wp_admitting_reads {p : Program α} (hp : p.Within Op.Reads) :
    wp (capitalHandler Ex) admitting () p (fun _ _ => True) s := by
  refine wp_within (P := fun _ => True) (Protocol.stable_alone _) ?_ hp trivial
  intro o s₁ r s₂ ho _ _ hop
  refine ⟨sendsAdmitted_of_same ?_, trivial, trivial⟩
  rw [handler_reads ho hop.1]

/-- One operation of a call that runs alone. -/
theorem wp_admitting_perform {o : Op} {Q : Except Exc o.Val → World ε × Capital → Prop}
    (ho : ∀ n, o ≠ .submitOrder n) (h : ∀ r s', capitalHandler Ex o s r s' → Q r s') :
    wp (capitalHandler Ex) admitting () (perform o) Q s := by
  refine wp_perform_iff.mpr ?_
  rintro s₁ rfl - r s₂ hop
  exact ⟨sendsAdmitted_of_same (submitted_of_ne hop.1 ho), trivial, h r s₂ hop⟩

omit [NumericColumn] in
/-- `validate_live_balance` passes only what the guards are to see. -/
theorem admits_of_validateLiveBalance {items : CapitalReservations.Items} {intentId : String}
    {balances : List (String × ℚ)}
    (h : CapitalReservations.validateLiveBalance intentId balances items = .ok ()) :
    ∃ r, items.lookup intentId = some r ∧
      CapitalReservations.totalReserved r.asset items ≤ (balances.lookup r.asset).getD 0 := by
  unfold CapitalReservations.validateLiveBalance at h
  cases hr : items.lookup intentId with
  | none => simp [hr] at h
  | some r =>
    rw [hr] at h
    by_cases hshort : (balances.lookup r.asset).getD 0
        < CapitalReservations.totalReserved r.asset items
    · simp [hshort] at h
    · exact ⟨r, rfl, not_lt.mp hshort⟩

/-- **The live balance check.** -/
theorem wp_checkLiveBalance (a : SubmitArgs) :
    wp (capitalHandler Ex) admitting () (checkLiveBalance a)
      (fun r s => r = .ok () → s.2.Admits a.intent.intentId) s := by
  refine wp_tryCatch.mpr (wp_bind.mpr (wp_admitting_perform (fun n => by simp) ?_))
  rintro (e | balances) s₁ hop
  · cases e with
    | permissionError msg =>
      refine wp_bind.mpr (wp_mono ?_ (wp_admitting_reads (Prog.within_perform.mpr trivial)))
      rintro (e | u) s₂ - h <;> cases h
    | _ =>
      intro h
      cases h
  · obtain ⟨-, -, -, hserves⟩ := hop
    have hreported : s₁.2.reported = balances := by
      rcases hserves with h | ⟨⟨e, h⟩, -⟩
      · exact (Except.ok.inj h).symm
      · cases h
    refine wp_admitting_perform (fun n => by simp) ?_
    rintro (e | u) s₂ ⟨-, hitems, -, hanswer, hsame⟩
    · cases e with
      | permissionError msg =>
        refine wp_bind.mpr (wp_mono ?_ (wp_admitting_reads (Prog.within_perform.mpr trivial)))
        rintro (e | u) s₃ - h <;> cases h
      | _ =>
        intro h
        cases h
    · intro _
      unfold Capital.Admits
      rw [hitems, hsame, hreported]
      exact admits_of_validateLiveBalance hanswer.symm

/-- A part that only reads is passed over. -/
theorem wp_admitting_then {β : Type} {p : Program α} {f : α → Program β}
    {Q : Except Exc β → World ε × Capital → Prop} (hp : p.Within Op.Asks)
    (herror : ∀ e s, Q (.error e) s)
    (hf : ∀ x s, wp (capitalHandler Ex) admitting () (f x) Q s) :
    wp (capitalHandler Ex) admitting () (p >>= f) Q s := by
  refine wp_bind.mpr (wp_mono ?_ (wp_admitting_reads (hp.mono fun _ => Op.Asks.reads)))
  rintro (e | x) s₁ -
  · exact herror e s₁
  · exact hf x s₁

/-- What lets an order go on: it is reduce-only, or admitted. -/
def Passes (a : SubmitArgs) (s : World ε × Capital) : Prop :=
  a.intent.reduceOnly = false → s.2.Admits a.intent.intentId

/-- What the reservation check leaves. -/
theorem wp_checkReservations (k : LiveCall) :
    wp (capitalHandler Ex) admitting () (checkReservations k.service k.args)
      (fun r s => r = .ok () → Passes k.args s) s := by
  unfold checkReservations
  rw [k.reserves]
  refine wp_admitting_then (within_checkReserved k.args) (fun e s h => by cases h) fun _ s₁ => ?_
  cases hreduce : k.args.intent.reduceOnly with
  | true =>
    intro _ h
    rw [hreduce] at h
    cases h
  | false =>
    refine wp_mono ?_ (wp_checkLiveBalance k.args)
    exact fun r s₂ h hr _ => h hr

/-- **The guards of a LIVE call** only let such an order through. -/
theorem wp_liveGuards (k : LiveCall) :
    wp (capitalHandler Ex) admitting () (guards k.service k.args)
      (fun r s => r = .ok () → Passes k.args s) s := by
  have herror : ∀ (e : Exc) (s : World ε × Capital),
      (Except.error e : Except Exc Unit) = .ok () → Passes k.args s := by
    intro e s h
    cases h
  refine wp_admitting_then (within_checkIsolation _ _) herror fun _ s₁ => ?_
  refine wp_admitting_then (within_checkRisk _) herror fun _ s₂ => ?_
  refine wp_admitting_then (Prog.within_ofExcept _) herror fun _ s₃ => ?_
  refine wp_admitting_then (within_checkPretrade _) herror fun _ s₄ => ?_
  refine wp_admitting_then (within_checkSpotSell _) herror fun _ s₅ => ?_
  unfold checkLive
  rw [if_pos k.live]
  exact wp_admitting_then (within_checkLeader _ _) herror fun _ s₆ => wp_checkReservations k

/-! ## 3. What happens behind the guards -/

/-- The operations behind the guards: balances are not asked for again, and what is sent is the
order of the call. -/
def BehindGuards (a : SubmitArgs) : Op → Prop
  | .getBalance => False
  | .submitOrder n => n.intentId = a.intent.intentId ∧ n.reduceOnly = a.intent.reduceOnly
  | _ => True

variable {a : SubmitArgs}

omit [NumericColumn] in
/-- None of them changes what the guards have seen. -/
theorem Passes.step {o : Op} {s' : World ε × Capital} {r : execSig.Ans o} (h : Passes a s)
    (ho : BehindGuards a o) (hitems : s'.2.items = s.2.items)
    (hserves : s.2.Serves o r s'.2.reported) : Passes a s' := by
  have hreported : s'.2.reported = s.2.reported := by
    cases o with
    | getBalance => exact absurd ho id
    | reservationItems intentId => exact hserves.2
    | validateLiveBalance intentId balances => exact hserves.2
    | _ => exact hserves
  intro hreduce
  unfold Capital.Admits
  rw [hitems, hreported]
  exact h hreduce

/-- **A program behind the guards** keeps it, and sends under it only. -/
theorem wp_behindGuards {p : Program α} (hp : p.Within (BehindGuards a)) (h : Passes a s) :
    wp (capitalHandler Ex) admitting () p (fun _ => Passes a) s := by
  refine wp_within (Protocol.stable_alone _) ?_ hp h
  rintro o s₁ r s₂ ho hs₁ - hop
  refine ⟨?_, trivial, hs₁.step ho hop.2.1 hop.2.2.2⟩
  by_cases hsends : ∃ n, o = .submitOrder n
  · obtain ⟨n, rfl⟩ := hsends
    obtain ⟨v, -, hw⟩ := hop.1
    intro n' hn' hreduce
    rw [hw] at hn'
    obtain rfl : n = n' := (List.cons.inj hn').1
    rw [ho.1]
    exact hs₁ (ho.2.symm.trans hreduce)
  · exact sendsAdmitted_of_same (submitted_of_ne hop.1 fun n hn => hsends ⟨n, hn⟩)

omit [PyStr] [NumericColumn] in
theorem behindGuards_completes : ∀ o : Op, o.Completes → BehindGuards a o := by
  intro o ho
  cases o <;> first | exact ho.elim | trivial

/-- **`submit` in LIVE mode** sends an order that is not reduce-only only under what its guards
have seen. -/
theorem wp_liveSubmit (k : LiveCall) (s : World ε × Capital) :
    wp (capitalHandler Ex) admitting () (k.service.submit k.args) (fun _ _ => True) s := by
  refine wp_submit_guarded (P := fun _ => True) (G := Passes k.args) ?_ ?_ ?_ ?_ ?_
  · intro s _
    refine wp_mono ?_ (wp_liveGuards k)
    rintro (e | u) s₁ h
    · trivial
    · exact h rfl
  · exact wp_admitting_perform (fun n => by simp) fun _ _ _ => trivial
  · intro r s _
    refine wp_admitting_perform (fun n => by simp) ?_
    rintro (e | u) s₁ - <;> trivial
  · exact fun _ _ _ => trivial
  · intro s hs
    refine wp_submitAdmitted_of (P := Passes k.args)
      (N := fun n => BehindGuards k.args (.submitOrder n)) ?_ ?_ ?_ ?_ ?_ hs
    · exact fun _ _ _ => trivial
    · intro s hs
      refine wp_mono ?_ (wp_behindGuards (Prog.within_perform.mpr trivial) hs)
      rintro (e | (_ | record)) s₁ h
      · exact h
      · exact h
      · trivial
    · intro s hs _
      refine wp_mono ?_ (wp_behindGuards (within_reconcileExisting trivial (fun _ => trivial)
        fun _ => trivial) hs)
      rintro (e | (_ | existing)) s₁ h
      · trivial
      · exact h
      · exact wp_mono (fun _ _ _ => trivial) (wp_behindGuards (within_adopt trivial) h)
    · intro s hs
      refine wp_mono ?_ (wp_returns (returns_normalizeRevalidated k.args)
        (wp_behindGuards (within_normalizeRevalidated k.args trivial trivial trivial) hs))
      rintro r s₁ ⟨h, hr⟩
      refine ⟨h, fun n hn => ?_⟩
      obtain ⟨filters, cap, hnorm⟩ := hr n hn
      obtain ⟨qty, price, -, -, rfl⟩ := normalizeAndValidate_eq_ok hnorm
      exact ⟨rfl, rfl⟩
    · intro n s hs hn
      exact wp_mono (fun _ _ _ => trivial)
        (wp_behindGuards (within_fresh behindGuards_completes hn) hs)

/-! ## 4. The result -/

theorem positive_performs [Times ℚ] {Ex : Exchange ε} {s₀ s s' : World ε × Capital} {o : Op}
    (h : Session.Performs (liveHistories Ex) s₀ o s s')
    (hs₀ : CapitalReservations.Positive s₀.2.items) :
    CapitalReservations.Positive s.2.items := by
  refine h.keeps (P := fun s => CapitalReservations.Positive s.2.items) ?_ ?_ ?_ hs₀
  · intro k o s r s' hs hop
    rw [hop.2.1]
    exact hs
  · intro k s _
    exact CapitalReservations.Reachable.empty.positive
  · intro l s s' hs hhap
    cases hhap with
    | reserve a w c => exact hs.reserve a c.clock
    | release intentId w c => exact hs.release intentId
    | prune w c => exact hs.prune c.clock
    | elsewhere => exact hs

/-- **A LIVE order is backed by live capital exactly when** the reservation that is still held
for it has not expired.  In every history, and for every order sent that is not reduce-only. -/
theorem live_capital_iff [Times ℚ] (Ex : Exchange ε) (w₀ : World ε) (clock : ℚ)
    (reported : List (String × ℚ)) (n : OrderIntent) (s s' : World ε × Capital)
    (h : Session.Performs (liveHistories Ex) (w₀, ⟨∅, clock, reported⟩) (.submitOrder n) s s')
    (hn : n.reduceOnly = false) :
    s.2.Backs n.intentId ↔ ∀ r ∈ s.2.items.lookup n.intentId, s.2.clock < r.expiresAt := by
  have hpos := positive_performs h CapitalReservations.Reachable.empty.positive
  have hsent : s'.1.submitted = n :: s.1.submitted := by
    obtain ⟨_, _, _, _, _, _, _, hop⟩ := h
    obtain ⟨v, -, hw⟩ := hop.1
    rw [hw]
    rfl
  obtain ⟨r, hr, hcovered⟩ := h.guar (fun k s => wp_liveSubmit k s) n hsent hn
  constructor
  · rintro ⟨r', hlive, -⟩ r'' hr''
    rw [CapitalReservations.live, Option.filter_eq_some_iff] at hlive
    rw [hlive.1] at hr''
    cases hr''
    simpa using hlive.2
  · intro hunexpired
    have hlive := hunexpired r hr
    refine ⟨r, by simp [CapitalReservations.live, hr, Option.filter, hlive], ?_⟩
    exact (CapitalReservations.totalReserved_pruneLocked_le hpos r.asset s.2.clock).trans hcovered

end Histories

/-! ## 5. A reservation that is over -/

section Lapsed

attribute [local instance] asciiStr exactColumn Python.floatTimes

variable {ε : Type}

/-- Everybody cooperates, and the exchange reports `balances`. -/
def withBalances (v : Venue ε) (balances : List (String × ℚ)) :
    Script execSig (World ε × Capital)
  | .reservationItems intentId, s => (.ok (decide (intentId ∈ s.2.items)), s)
  | .validateLiveBalance intentId reported, s =>
      (CapitalReservations.validateLiveBalance intentId reported s.2.items, s)
  | .getBalance, s => (.ok balances, (s.1, { s.2 with reported := balances }))
  | o, s => ((cooperate .plain v o s.1).1, ((cooperate .plain v o s.1).2, s.2))

theorem withBalances_picks {Ex : Exchange ε} {v : Venue ε} (hv : v.Picks Ex)
    (balances : List (String × ℚ)) : (withBalances v balances).Picks (capitalHandler Ex) := by
  intro o s
  have hcooperate := cooperate_picks hv .plain o s.1
  cases o with
  | reservationItems intentId => exact ⟨rfl, rfl, le_rfl, rfl, rfl⟩
  | validateLiveBalance intentId reported => exact ⟨rfl, rfl, le_rfl, rfl, rfl⟩
  | getBalance => exact ⟨rfl, rfl, le_rfl, Or.inl rfl⟩
  | _ => exact ⟨hcooperate, rfl, le_rfl, rfl⟩

/-- A call that buys one unit, in LIVE mode. -/
def LiveCall.buy : LiveCall where
  service := { id := 0, accountLocks := 0, leader := true, reservations := some true }
  args := { SubmitArgs.limitBuy "i-1" with mode := .LIVE }
  live := rfl
  reserves := rfl

/-- 60 USDT reserved for a minute, from time 0. -/
def heldForAMinute : CapitalReservations.Items :=
  (CapitalReservations.reserve { intentId := "i-1", amount := 60, available := 100 } 0 ∅).2

/-- The call at a time, with 100 USDT on the exchange. -/
def buyAt (clock : ℚ) : Program OrderRecord × (World Unit × Capital) :=
  (LiveCall.buy.service.submit LiveCall.buy.args).playFor
    (withBalances .acknowledging [("USDT", 100)]) 12
    (World.empty (), ⟨heldForAMinute, clock, []⟩)

/-- The order is sent then. -/
theorem performs_buyAt {clock : ℚ} (hclock : 0 ≤ clock) {n : OrderIntent}
    (h : sending (buyAt clock).1 = some n) :
    ∃ s', Session.Performs (liveHistories (Exchange.any Unit)) (World.empty (), ⟨∅, 0, []⟩)
      (.submitOrder n) (buyAt clock).2 s' := by
  obtain ⟨k, hk⟩ := eq_op_of_sending h
  have hpicks := withBalances_picks (Venue.picks_any Venue.acknowledging) [("USDT", 100)]
  have hexec := exec_playFor hpicks 12 (LiveCall.buy.service.submit LiveCall.buy.args)
    (World.empty (), ⟨heldForAMinute, clock, []⟩)
  rw [show (Prog.playFor _ 12 _ _).1 = _ from hk] at hexec
  have hsession : Session (liveHistories (Exchange.any Unit)) (World.empty (), ⟨∅, 0, []⟩)
      [.idle (.reserve { intentId := "i-1", amount := 60, available := 100 }), .idle .elsewhere]
      (World.empty (), ⟨heldForAMinute, clock, []⟩) :=
    .idle _ (.reserve _ _ _) (.idle _ (.elsewhere _ _ _ clock hclock) (.nil _))
  exact ⟨_, _, _, .buy, k, _, hsession, hexec, hpicks _ _⟩

/-- What it sends. -/
def boughtOrder : OrderIntent :=
  { (SubmitArgs.limitBuy "i-1").intent with clientOrderId := some "i-1" }

/-- Within the minute. -/
theorem live_capital_iff_in_time :
    (buyAt 1).2.2.Backs "i-1" ↔
      ∀ r ∈ (buyAt 1).2.2.items.lookup "i-1", (buyAt 1).2.2.clock < r.expiresAt := by
  have hsending : sending (buyAt 1).1 = some boughtOrder := by decide +kernel
  obtain ⟨s', h⟩ := performs_buyAt (by decide) hsending
  exact live_capital_iff _ _ _ _ boughtOrder _ s' h rfl

/-- **An order is sent under a reservation that is over.**  Reserved for a minute, submitted
after a thousand seconds. -/
theorem live_capital_lapses :
    ¬ ∀ n s s', Session.Performs (liveHistories (Exchange.any Unit)) (World.empty (), ⟨∅, 0, []⟩)
      (.submitOrder n) s s' → n.reduceOnly = false → s.2.Backs n.intentId := by
  intro h
  have hsending : sending (buyAt 1000).1 = some boughtOrder := by decide +kernel
  obtain ⟨s', hperforms⟩ := performs_buyAt (by decide) hsending
  obtain ⟨r, hlive, -⟩ := h boughtOrder _ s' hperforms rfl
  have hover : CapitalReservations.live (buyAt 1000).2.2.items boughtOrder.intentId
      (buyAt 1000).2.2.clock = none := by decide +kernel
  rw [hover] at hlive
  cases hlive

end Lapsed

end Kripto.Execution
