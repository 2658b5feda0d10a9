/-
# An order is sent at most once

Any number of workers run `submit` over one `PersistentIntentLedger`, interleaved between any
two of their operations, killed anywhere and started again, against an exchange that may answer
anything.  An `intent_id` still reaches `exchange.submit_order` at most once.

The reason is the unique `intent_id`: a worker sends only after ITS insert committed.  In terms
of the proof, the insert makes the worker the owner of the intent, an auxiliary fact the code
does not store; sending spends the ownership, and no step of anybody else touches it.
-/
import Kripto.Execution.Script

namespace Kripto.Execution

open Effect

section Workers

variable {ε ι : Type}

/-! ## 1. The system -/

/-- The `submit_order` calls made so far for an intent. -/
def World.sends (w : World ε) (id : String) : ℕ :=
  w.submitted.countP fun n => n.intentId = id

variable [PyStr] [NumericColumn]

/-- **The workers**: threads that run `submit` of any service over the ledger.  The
surroundings may change everything but the table and the record of what was sent: the exchange
moves by itself, an operator clears an isolation, a restart empties caches and frees locks. -/
def workers (Ex : Exchange ε) : Pool.System ι execSig (World ε) OrderRecord where
  handler := fun _ => handler Ex
  start := fun _ p => ∃ (self : ExecutionService) (a : SubmitArgs),
    self.persistentIntents = true ∧ p = self.submit a
  env := fun w w' => w'.orders = w.orders ∧ w'.submitted = w.submitted

/-! ## 2. Operations that neither insert nor send -/

/-- Neither a new row nor an order to the exchange. -/
def Op.Quiet : Op → Prop
  | insertOrder _ | submitOrder _ => False
  | _ => True

omit [PyStr] [NumericColumn] in
theorem Op.Reads.quiet {o : Op} (h : o.Reads) : o.Quiet := by
  cases o <;> first | exact h.elim | trivial

/-- A quiet operation sends nothing. -/
theorem quiet_submitted {Ex : Exchange ε} {o : Op} (ho : o.Quiet) {w w' : World ε}
    (h : Change Ex o w w') : w'.submitted = w.submitted := by
  cases h with
  | inserted => exact ho.elim
  | sent => exact ho.elim
  | _ => rfl

/-- A quiet operation neither adds nor removes a row. -/
theorem quiet_orders {Ex : Exchange ε} {o : Op} (ho : o.Quiet) {w w' : World ε}
    (h : Change Ex o w w') (id : String) : w'.orders id = none ↔ w.orders id = none := by
  cases h with
  | inserted => exact ho.elim
  | sent => exact ho.elim
  | marked _ id' record row found =>
    by_cases hid : id = id'
    · subst hid
      simp [found]
    · rw [World.setOrder_of_ne _ _ hid]
  | _ => exact Iff.rfl

/-! ## 3. Ownership -/

section Ownership

omit [PyStr] [NumericColumn]

/-- Who inserted the row of an intent in this run, if anybody did. -/
abbrev Owners (ι : Type) : Type := String → Option ι

/-- A committed insert makes its worker the owner. -/
def note (t : ι) : (o : Op) → execSig.Ans o → Owners ι → Owners ι
  | .insertOrder row, .ok _, g => Function.update g row.intentId (some t)
  | _, _, g => g

theorem note_quiet {o : Op} (ho : o.Quiet) (t : ι) (r : execSig.Ans o) (g : Owners ι) :
    note t o r g = g := by
  cases o with
  | insertOrder row => exact ho.elim
  | _ => rfl

/-- The intent is `t`'s and has not been sent. -/
def Owned (t : ι) (id : String) (s : World ε × Owners ι) : Prop :=
  s.2 id = some t ∧ s.1.sends id = 0

/-- What is true of an intent in every state. -/
structure OnceAt (s : World ε × Owners ι) (id : String) : Prop where
  once : s.1.sends id ≤ 1
  unowned : s.2 id = none → s.1.sends id = 0
  owned : s.2 id ≠ none → s.1.orders id ≠ none

/-- Nobody else takes an intent of `t`, or sends it. -/
def Respects (t : ι) (s s' : World ε × Owners ι) : Prop :=
  ∀ id, s.2 id = some t → s'.2 id = some t ∧ s'.1.sends id = s.1.sends id

/-- **The protocol of the workers.** -/
def atMostOnce : Protocol ι (World ε × Owners ι) where
  inv := fun s => ∀ id, OnceAt s id
  rely := Respects
  guar := fun t s s' => ∀ u, u ≠ t → Respects u s s'
  rely_refl := fun _ _ _ h => ⟨h, rfl⟩
  rely_trans := fun _ _ _ _ h h' id hid =>
    ⟨(h' id (h id hid).1).1, (h' id (h id hid).1).2.trans (h id hid).2⟩
  compat := fun htu _ _ hg => hg _ (Ne.symm htu)

theorem stable_true (t : ι) : (atMostOnce (ε := ε)).Stable t fun _ => True :=
  fun _ _ _ _ _ => trivial

theorem stable_owned (t : ι) (id : String) : (atMostOnce (ε := ε)).Stable t (Owned t id) := by
  rintro s s' ⟨hown, hsends⟩ hrely _
  obtain ⟨hown', hsends'⟩ := hrely id hown
  exact ⟨hown', hsends'.trans hsends⟩

end Ownership

/-! ## 4. One operation -/

/-- The handler the proof works with: the plain one, with the owners kept beside the world. -/
abbrev owning (Ex : Exchange ε) (t : ι) : Handler execSig (World ε × Owners ι) :=
  (Pool.System.withGhost (workers Ex) note).handler t

variable {Ex : Exchange ε} {t : ι} {s s' : World ε × Owners ι}

/-- A quiet operation leaves every ownership alone. -/
theorem respects_quiet {o : Op} (ho : o.Quiet) {r : execSig.Ans o} (hi : atMostOnce.inv s)
    (h : owning Ex t o s r s') : (∀ u, Respects u s s') ∧ atMostOnce.inv s' := by
  obtain ⟨hw, hg⟩ := h
  rw [note_quiet ho] at hg
  have hsends : ∀ id, s'.1.sends id = s.1.sends id := fun id => by
    unfold World.sends
    rw [quiet_submitted ho (handler_change hw)]
  refine ⟨fun u id hid => ⟨by rw [hg, hid], hsends id⟩, fun id => ?_⟩
  obtain ⟨honce, hunowned, howned⟩ := hi id
  refine ⟨by rw [hsends]; exact honce, fun hnone => ?_, fun hsome => ?_⟩
  · rw [hg] at hnone
    rw [hsends]
    exact hunowned hnone
  · rw [hg] at hsome
    rw [ne_eq, quiet_orders ho (handler_change hw)]
    exact howned hsome

theorem wp_quiet {α : Type} {P : World ε × Owners ι → Prop} {p : Program α}
    (hst : atMostOnce.Stable t P) (hp : p.Within Op.Quiet) (hP : P s) :
    wp (owning Ex t) atMostOnce t p (fun _ => P) s := by
  refine wp_within hst (fun o s₁ r s₂ ho hP₁ hi h => ?_) hp hP
  obtain ⟨hresp, hi₂⟩ := respects_quiet ho hi h
  exact ⟨fun u _ => hresp u, hi₂, hst _ _ hP₁ (hresp t) hi₂⟩

/-- **Whoever inserts the row owns the intent.**  A free `intent_id` has no owner, so nobody
loses one. -/
theorem wp_insert (row : OrderRow) : wp (owning Ex t) atMostOnce t (perform (.insertOrder row))
    (fun r s => r = .ok () → Owned t row.intentId s) s := by
  refine wp_perform (stable_true t) trivial ?_
  rintro s₁ r s₂ - hi ⟨hw, hg⟩
  rcases hw with ⟨free, rfl, hw⟩ | ⟨hr, hw⟩
  · have hnone : s₁.2 row.intentId = none := by
      by_contra hne
      exact (hi row.intentId).owned hne free
    have hzero : s₁.1.sends row.intentId = 0 := (hi row.intentId).unowned hnone
    have hsends : ∀ id, s₂.1.sends id = s₁.1.sends id := fun id => by rw [hw]; rfl
    have hown : s₂.2 = Function.update s₁.2 row.intentId (some t) := hg
    refine ⟨fun u hu id hid => ⟨?_, hsends id⟩, fun id => ?_, fun _ => ⟨?_, ?_⟩⟩
    · rw [hown]
      have hne : id ≠ row.intentId := by
        rintro rfl
        rw [hnone] at hid
        exact absurd hid (by simp)
      rw [Function.update_of_ne hne, hid]
    · by_cases hid : id = row.intentId
      · subst hid
        refine ⟨by rw [hsends, hzero]; exact Nat.zero_le 1, fun _ => by rw [hsends, hzero], ?_⟩
        intro _
        rw [hw]
        simp
      · obtain ⟨honce, hunowned, howned⟩ := hi id
        rw [← hsends] at honce hunowned
        have horders : s₂.1.orders id = s₁.1.orders id := by
          rw [hw, World.setOrder_of_ne _ _ hid]
        have howner : s₂.2 id = s₁.2 id := by rw [hown, Function.update_of_ne hid]
        exact ⟨honce, by rwa [howner], by rwa [howner, horders]⟩
    · rw [hown, Function.update_self]
    · rw [hsends, hzero]
  · have hg' : s₂.2 = s₁.2 := by
      rcases hr with rfl | rfl <;> exact hg
    have hs : s₂ = s₁ := Prod.ext hw hg'
    subst hs
    refine ⟨fun u _ id hid => ⟨hid, rfl⟩, hi, ?_⟩
    rintro rfl
    rcases hr with hr | hr <;> exact absurd hr (by simp)

/-- **Sending spends the ownership.** -/
theorem wp_send {n : OrderIntent} (h : Owned t n.intentId s) :
    wp (owning Ex t) atMostOnce t (perform (.submitOrder n)) (fun _ _ => True) s := by
  refine wp_perform (stable_owned t n.intentId) h ?_
  rintro s₁ r s₂ ⟨hown, hzero⟩ hi ⟨⟨v, _, hw⟩, hg⟩
  have hg' : s₂.2 = s₁.2 := hg
  have hne : ∀ id, id ≠ n.intentId → s₂.1.sends id = s₁.1.sends id := fun id hid => by
    rw [hw]
    simp [World.sends, World.sent, Ne.symm hid]
  have heq : s₂.1.sends n.intentId = s₁.1.sends n.intentId + 1 := by
    rw [hw]
    simp [World.sends, World.sent]
  have horders : s₂.1.orders = s₁.1.orders := by rw [hw]; rfl
  refine ⟨fun u hu id hid => ⟨by rw [hg', hid], hne id ?_⟩, fun id => ?_, trivial⟩
  · rintro rfl
    rw [hown] at hid
    exact hu (Option.some.inj hid).symm
  · obtain ⟨honce, hunowned, howned⟩ := hi id
    by_cases hid : id = n.intentId
    · subst hid
      refine ⟨by rw [heq, hzero], fun hnone => ?_, fun _ => ?_⟩
      · rw [hg', hown] at hnone
        exact absurd hnone (by simp)
      · rw [horders]
        exact howned (by rw [hown]; simp)
    · rw [← hne id hid] at honce hunowned
      exact ⟨honce, by rwa [hg'], by rwa [hg', horders]⟩

/-! ## 5. The program -/

open PersistentIntentLedger ExecutionService

section Rules

omit [PyStr] [NumericColumn]

variable {self : ExecutionService} {a : SubmitArgs} {n : OrderIntent} {record : OrderRecord}

theorem quiet_reconcileExisting (id : String) (expected : Option OrderIntent) :
    (reconcileExisting id expected).Within Op.Quiet :=
  within_reconcileExisting trivial (fun _ => trivial) fun _ => trivial

theorem quiet_lostInsert : (lostInsert self a n).Within Op.Quiet := by
  refine Prog.Within.bind (quiet_reconcileExisting _ _) fun resolved => ?_
  cases resolved with
  | some resolved => exact within_adopt trivial
  | none => exact Prog.within_raise _

variable {σ : Type} {H : Handler execSig σ} {D : Protocol ι σ} {t : ι} {s : σ}

/-- **The side effect under a licence.**  `O` is what allows to send: quiet operations keep it
until the order goes out. -/
theorem wp_sideEffect_licensed {O : σ → Prop}
    (hquiet : ∀ {α : Type} {p : Program α} s, p.Within Op.Quiet →
      wp H D t p (fun _ _ => True) s)
    (hkeeps : ∀ {α : Type} {p : Program α} s, p.Within Op.Quiet → O s → wp H D t p (fun _ => O) s)
    (hsend : ∀ s, O s → wp H D t (perform (.submitOrder n)) (fun _ _ => True) s)
    (h : O s) : wp H D t (sideEffect self a n record) (fun _ _ => True) s := by
  refine wp_sideEffect_of (P := O) (R := fun _ _ => True) (E := fun _ _ => True) ?_ ?_ ?_ ?_ ?_ ?_
  · refine wp_mono ?_ (hkeeps s (Prog.within_perform.mpr trivial) h)
    rintro (e | u) s₁ hO
    · trivial
    · exact hO
  · intro s₁ hO
    refine wp_mono ?_ (hkeeps s₁ (within_checkFence trivial) hO)
    rintro (e | u) s₂ hO₂
    · trivial
    · exact hO₂
  · intro s₁ hO
    refine wp_mono ?_ (hsend s₁ hO)
    rintro (e | actual) s₂ - <;> trivial
  · intro actual s₁ _
    refine wp_mono ?_ (hquiet s₁ (Prog.within_perform.mpr trivial))
    rintro (e | u) s₂ -
    · trivial
    · refine wp_mono ?_ (hquiet s₂ (within_markDurable trivial))
      rintro (e | u) s₃ - <;> trivial
  · intro e s₁ _ hamb
    have hwithin : (onAmbiguous self a record e).Within Op.Quiet :=
      within_onAmbiguous trivial trivial (fun _ => trivial) trivial
    rw [onAmbiguous_of_ambiguous self a hamb] at hwithin
    exact hquiet s₁ hwithin
  · intro e s₁ _ _
    trivial

end Rules

section Submit

omit [NumericColumn]

variable {self : ExecutionService} {a : SubmitArgs}
variable {σ : Type} {H : Handler execSig σ} {D : Protocol ι σ} {t : ι} {s : σ}

/-- **`submit` sends under a licence.**  A service with a ledger gets it from its own committed
insert, one without from normalization alone. -/
theorem wp_submit_licensed {O : OrderIntent → σ → Prop}
    (hquiet : ∀ {α : Type} {p : Program α} s, p.Within Op.Quiet →
      wp H D t p (fun _ _ => True) s)
    (hkeeps : ∀ {α : Type} {p : Program α} n s, p.Within Op.Quiet → O n s →
      wp H D t p (fun _ => O n) s)
    (hsend : ∀ n s, O n s → wp H D t (perform (.submitOrder n)) (fun _ _ => True) s)
    (hlicense : ∀ n s, (∃ filters cap, normalizeAndValidate a.intent filters cap
        a.referencePrice a.maxDeviationBps = .ok n) →
      if self.persistentIntents
      then wp H D t (perform (.insertOrder (newRow n))) (fun r s => r = .ok () → O n s) s
      else O n s) :
    wp H D t (self.submit a) (fun _ _ => True) s := by
  refine wp_submit_of (P := fun _ => True) ?_ ?_ ?_ ?_ ?_ ?_ ?_
  · exact fun s hp _ => hquiet s (hp.mono fun _ => Op.Reads.quiet)
  · exact hquiet s (Prog.within_perform.mpr trivial)
  · intro r s₁ _
    refine wp_mono ?_ (hquiet s₁ (Prog.within_perform.mpr trivial))
    rintro (e | u) s₂ - <;> trivial
  · intros
    trivial
  · intro s₁ _
    refine wp_mono ?_ (hquiet s₁ (Prog.within_perform.mpr trivial))
    exact fun r s₂ _ => ⟨trivial, fun _ _ => trivial⟩
  · intro s₁ _ _
    refine wp_mono ?_ (hquiet s₁ (quiet_reconcileExisting _ _))
    rintro (e | (_ | existing)) s₂ -
    · trivial
    · trivial
    · exact hquiet s₂ (within_adopt trivial)
  · intro n s₁ _ hn
    have hlicense' := fun s => hlicense n s hn
    cases hself : self.persistentIntents with
    | false =>
      simp only [hself, Bool.false_eq_true, if_false] at hlicense' ⊢
      exact wp_sideEffect_licensed hquiet (hkeeps n) (hsend n) (hlicense' s₁)
    | true =>
      simp only [hself, if_true] at hlicense' ⊢
      refine wp_reserveAndSend_of (P := fun _ => True) (O := O n)
        (wp_reserve_of ?_ ?_ ?_ trivial) ?_ ?_ ?_
      · exact fun s _ => hquiet s (Prog.within_perform.mpr trivial)
      · intro s _
        refine wp_mono ?_ (hlicense' s)
        rintro (e | u) s₂ hO
        · trivial
        · exact hO rfl
      · exact fun s hO => hkeeps n s (Prog.within_perform.mpr trivial) hO
      · intros
        trivial
      · exact fun record s hO => wp_sideEffect_licensed hquiet (hkeeps n) (hsend n) hO
      · exact fun s _ => hquiet s quiet_lostInsert

end Submit

/-- **`submit` keeps the protocol**, whatever it is asked to submit: a worker sends only what
its own insert has made it the owner of. -/
theorem wp_submit {self : ExecutionService} {a : SubmitArgs}
    (hself : self.persistentIntents = true) :
    wp (owning Ex t) atMostOnce t (self.submit a) (fun _ _ => True) s := by
  refine wp_submit_licensed (O := fun n => Owned t n.intentId) ?_ ?_ ?_ ?_
  · exact fun s hp => wp_quiet (stable_true t) hp trivial
  · exact fun n s hp hown => wp_quiet (stable_owned t n.intentId) hp hown
  · exact fun n s hown => wp_send hown
  · intro n s _
    rw [if_pos hself]
    exact wp_insert (newRow n)

/-! ## 6. The result -/

theorem workers_obey (Ex : Exchange ε) :
    Pool.Obeys ((workers (ι := ι) Ex).withGhost note) atMostOnce where
  start := by
    rintro t p s ⟨self, a, hself, rfl⟩ -
    exact wp_submit hself
  env := by
    rintro s s' ⟨⟨horders, hsubmitted⟩, hg⟩ hi
    have hsends : ∀ id, s'.1.sends id = s.1.sends id := fun id => by
      unfold World.sends
      rw [hsubmitted]
    refine ⟨fun id => ?_, fun t id hid => ⟨by rw [hg, hid], hsends id⟩⟩
    obtain ⟨honce, hunowned, howned⟩ := hi id
    rw [← hsends] at honce hunowned
    exact ⟨honce, by rwa [hg], by rwa [hg, horders]⟩

/-- **At most one `submit_order` per intent**, in every pool the workers can reach, whatever
the table held at the start. -/
theorem submit_at_most_once [DecidableEq ι] {w : World ε} (hw : w.submitted = [])
    {c : Pool ι execSig (World ε) OrderRecord}
    (h : Pool.Reaches (workers Ex) (Pool.idle w) c) (id : String) : c.shared.sends id ≤ 1 := by
  have hstart : atMostOnce.inv (w, fun _ : String => (none : Option ι)) := by
    intro id
    have hzero : w.sends id = 0 := by
      unfold World.sends
      rw [hw, List.countP_nil]
    exact ⟨by rw [hzero]; exact Nat.zero_le 1, fun _ => hzero, fun hne => absurd rfl hne⟩
  obtain ⟨g, hreach⟩ := Pool.reaches_attach note h fun _ => none
  have hsafe := Pool.sound (workers_obey Ex) (Pool.safe_idle hstart) hreach
  exact (hsafe.inv id).once

end Workers

section Race

attribute [local instance] asciiStr exactColumn

/-- Two processes submit one intent, operation by operation in turn. -/
def race : Pool Bool execSig (World Unit) OrderRecord :=
  Pool.play (fun _ => cooperate .plain .acknowledging)
    (fun i => (ExecutionService.process i).submit (.limitBuy "i-1")) (Pool.idle (World.empty ()))
    ([.spawn false false, .spawn true true] ++
      (List.replicate 30 [Move.act false, Move.act true]).flatten)

theorem reaches_race :
    Pool.Reaches (workers (Exchange.any Unit)) (Pool.idle (World.empty ())) race := by
  refine Pool.reaches_play (fun _ => cooperate_picks (Venue.picks_any _) .plain) ?_ _ _
  exact fun _ i => ⟨.process i, .limitBuy "i-1", rfl, rfl⟩

/-- In the race both processes get to their insert, and one order is sent. -/
theorem submit_at_most_once_race : race.shared.sends "i-1" ≤ 1 ∧ race.shared.sends "i-1" = 1 :=
  ⟨submit_at_most_once rfl reaches_race "i-1", by decide +kernel⟩

end Race

end Kripto.Execution
