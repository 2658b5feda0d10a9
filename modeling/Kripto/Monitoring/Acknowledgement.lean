/-
# Is an acknowledgement lost?

Beside every run of the ledger we keep, for each alert, whether it has been acknowledged since it
was last resolved, and to which number of attempts it was last escalated since then.

* `acknowledgement_kept`: an acknowledged alert stays acknowledged, and its attempts do not fall
  below what an escalation made of them, until it is resolved, in every interleaving of the
  statements in which an `INSERT OR REPLACE` finds no alert that is not resolved.

`acknowledgement_lost` is the run of two `record` calls that both find no row.
-/
import Kripto.Monitoring.Escalation
import Kripto.Effect.Play

namespace Kripto.Monitoring

open Effect Python

/-! ## 1. Processes and what is kept of their run -/

structure Kept where
  acknowledged : String → Bool
  floor : String → Option ℕ

namespace Kept

def none : Kept := ⟨fun _ => false, fun _ => .none⟩

/-- An alert is acknowledged, or escalated, when the statement has changed its row, and that holds
until one has resolved it. -/
def note : (o : Op) → Alerts → alertSig.Ans o → Kept → Kept
  | .updateAcknowledged alertKey, _, .ok 1, g =>
    { g with acknowledged := Function.update g.acknowledged alertKey true }
  | .updateAttempts alertKey _ _, d, .ok 1, g =>
    { g with
      floor := Function.update g.floor alertKey ((d.lookup alertKey).map (·.attempts + 1)) }
  | .updateResolved alertKey, _, .ok 1, g =>
    ⟨Function.update g.acknowledged alertKey false, Function.update g.floor alertKey .none⟩
  | _, _, _, g => g

end Kept

open PersistentEscalationLedger in
/-- **The processes**, as many as there are, each of which calls the ledger as often as it likes;
nothing else writes to the table. -/
def processes (ι : Type) : Pool.System ι alertSig (Alerts × Kept) Unit where
  handler := fun _ => Alerts.handler.noting Kept.note
  start := fun _ p =>
    (∃ a, p = record a >>= fun _ => pure ()) ∨
    (∃ now, p = due now >>= fun _ => pure ()) ∨
    (∃ alertKey now seconds, p = markEscalated alertKey now seconds >>= fun _ => pure ()) ∨
    (∃ alertKey, p = acknowledge alertKey >>= fun _ => pure ()) ∨
    (∃ alertKey, p = resolve alertKey >>= fun _ => pure ()) ∨
    ∃ alertKey, p = get alertKey >>= fun _ => pure ()
  env := fun s s' => s' = s

/-- **The condition on a run**: what is replaced is no alert, or one that has been resolved. -/
def ReplacesResolved (ι : Type) (_ : ι) : (o : Op) → Alerts × Kept → alertSig.Ans o → Prop
  | .insertOrReplace alertKey _, s, _ => (s.1.lookup alertKey).all (·.resolved) = true
  | _, _, _ => True

/-! ## 2. Statements and rows -/

section Statements

variable {d : Alerts} {alertKey : String} {p : AlertRow → Bool} {f : AlertRow → AlertRow}

theorem updateWhere_of_any (h : (d.lookup alertKey).any p = true) :
    d.updateWhere alertKey p f = (1, Table.update d alertKey f) := if_pos h

theorem updateWhere_of_not_any (h : (d.lookup alertKey).any p = false) :
    d.updateWhere alertKey p f = (0, d) := if_neg (by simp [h])

end Statements

/-! ## 3. The invariant -/

/-- What is kept of the run can be seen in the row, which has not been resolved. -/
structure Intact (s : Alerts × Kept) : Prop where
  acknowledged : ∀ alertKey, s.2.acknowledged alertKey = true →
    ∃ row, s.1.lookup alertKey = some row ∧ row.acknowledged = true ∧ row.resolved = false
  floor : ∀ alertKey n, s.2.floor alertKey = some n →
    ∃ row, s.1.lookup alertKey = some row ∧ n ≤ row.attempts ∧ row.resolved = false

/-- A statement after which an alert is no less acknowledged and escalated. -/
def Grows (r r' : AlertRow) : Prop :=
  (r.acknowledged = true → r'.acknowledged = true) ∧ r.attempts ≤ r'.attempts ∧
    (r.resolved = false → r'.resolved = false)

section Steps

variable {d d' : Alerts} {g : Kept} {alertKey : String}

theorem Intact.grows (h : Intact (d, g))
    (hrows : ∀ alertKey row, d.lookup alertKey = some row → row.resolved = false →
      ∃ row', d'.lookup alertKey = some row' ∧ Grows row row') : Intact (d', g) := by
  constructor
  · intro alertKey hkept
    obtain ⟨row, hrow, hacknowledged, hactive⟩ := h.acknowledged alertKey hkept
    obtain ⟨row', hrow', hgrows⟩ := hrows alertKey row hrow hactive
    exact ⟨row', hrow', hgrows.1 hacknowledged, hgrows.2.2 hactive⟩
  · intro alertKey n hkept
    obtain ⟨row, hrow, hfloor, hactive⟩ := h.floor alertKey n hkept
    obtain ⟨row', hrow', hgrows⟩ := hrows alertKey row hrow hactive
    exact ⟨row', hrow', hfloor.trans hgrows.2.1, hgrows.2.2 hactive⟩

/-- An `UPDATE` that lets its row grow. -/
theorem Intact.update (h : Intact (d, g)) {f : AlertRow → AlertRow}
    (hf : ∀ row, Grows row (f row)) : Intact (Table.update d alertKey f, g) := by
  refine h.grows fun other row hrow _ => ?_
  by_cases hother : other = alertKey
  · subst hother
    exact ⟨f row, Table.lookup_update_self hrow f, hf row⟩
  · exact ⟨row, by simp [Table.lookup_update, hother, hrow], id, le_rfl, id⟩

theorem Intact.updateWhere (h : Intact (d, g)) {p : AlertRow → Bool} {f : AlertRow → AlertRow}
    (hf : ∀ row, Grows row (f row)) : Intact ((d.updateWhere alertKey p f).2, g) := by
  cases hany : (d.lookup alertKey).any p with
  | true =>
    rw [updateWhere_of_any hany]
    exact h.update hf
  | false =>
    rw [updateWhere_of_not_any hany]
    exact h

/-- What is replaced has been resolved, so that nothing is kept of it. -/
theorem Intact.insertOrReplace (h : Intact (d, g)) (row : AlertRow)
    (hresolved : (d.lookup alertKey).all (·.resolved) = true) :
    Intact (d.insert alertKey row, g) := by
  refine h.grows fun other row' hrow hactive => ?_
  have hother : other ≠ alertKey := by
    rintro rfl
    have hrow' : row'.resolved = true := by simpa [hrow] using hresolved
    rw [hactive] at hrow'
    cases hrow'
  exact ⟨row', by simpa [hother] using hrow, id, le_rfl, id⟩

/-- What is kept of an acknowledgement can be seen. -/
theorem Intact.acknowledge (h : Intact (d, g)) :
    Intact ((Alerts.serve (.updateAcknowledged alertKey) d).2,
      Kept.note (.updateAcknowledged alertKey) d (Alerts.serve (.updateAcknowledged alertKey) d).1
        g) := by
  have hrows : Intact ((Alerts.serve (.updateAcknowledged alertKey) d).2, g) :=
    h.updateWhere fun row => ⟨fun _ => rfl, le_rfl, id⟩
  cases hany : (d.lookup alertKey).any Alerts.active with
  | false =>
    simp only [Alerts.serve, updateWhere_of_not_any hany] at hrows ⊢
    exact hrows
  | true =>
    obtain ⟨row, hrow, hactive⟩ := (Option.any_eq_true _ _).mp hany
    simp only [Alerts.serve, updateWhere_of_any hany] at hrows ⊢
    refine ⟨fun other hkept => ?_, hrows.floor⟩
    by_cases hother : other = alertKey
    · subst hother
      exact ⟨_, Table.lookup_update_self hrow _, rfl, by simpa [Alerts.active] using hactive⟩
    · exact hrows.acknowledged other (by simpa [Kept.note, hother] using hkept)

/-- So can an escalation. -/
theorem Intact.escalate (h : Intact (d, g)) (lastSeenAt nextEscalationAt : ℚ) :
    Intact ((Alerts.serve (.updateAttempts alertKey lastSeenAt nextEscalationAt) d).2,
      Kept.note (.updateAttempts alertKey lastSeenAt nextEscalationAt) d
        (Alerts.serve (.updateAttempts alertKey lastSeenAt nextEscalationAt) d).1 g) := by
  have hrows : Intact
      ((Alerts.serve (.updateAttempts alertKey lastSeenAt nextEscalationAt) d).2, g) :=
    h.updateWhere fun row => ⟨id, Nat.le_succ _, id⟩
  cases hany : (d.lookup alertKey).any fun r => Alerts.active r && !r.acknowledged with
  | false =>
    simp only [Alerts.serve, updateWhere_of_not_any hany] at hrows ⊢
    exact hrows
  | true =>
    obtain ⟨row, hrow, hactive⟩ := (Option.any_eq_true _ _).mp hany
    simp only [Alerts.serve, updateWhere_of_any hany] at hrows ⊢
    refine ⟨hrows.acknowledged, fun other n hkept => ?_⟩
    by_cases hother : other = alertKey
    · subst hother
      obtain rfl : row.attempts + 1 = n := by simpa [Kept.note, hrow] using hkept
      have hunresolved : row.resolved = false := by
        simpa [Alerts.active] using (Bool.and_eq_true_iff.mp hactive).1
      exact ⟨_, Table.lookup_update_self hrow _, le_rfl, hunresolved⟩
    · exact hrows.floor other n (by simpa [Kept.note, hother] using hkept)

/-- Of an alert that is resolved nothing is kept. -/
theorem Intact.resolve (h : Intact (d, g)) :
    Intact ((Alerts.serve (.updateResolved alertKey) d).2,
      Kept.note (.updateResolved alertKey) d (Alerts.serve (.updateResolved alertKey) d).1 g) := by
  cases hany : (d.lookup alertKey).any fun _ => true with
  | false =>
    simp only [Alerts.serve, updateWhere_of_not_any hany]
    exact h
  | true =>
    simp only [Alerts.serve, updateWhere_of_any hany]
    constructor
    · intro other hkept
      by_cases hother : other = alertKey
      · simp [Kept.note, hother] at hkept
      · simpa [Table.lookup_update, hother] using
          h.acknowledged other (by simpa [Kept.note, hother] using hkept)
    · intro other n hkept
      by_cases hother : other = alertKey
      · simp [Kept.note, hother] at hkept
      · simpa [Table.lookup_update, hother] using
          h.floor other n (by simpa [Kept.note, hother] using hkept)

end Steps

/-- **One statement** keeps the invariant, if what it replaces has been resolved. -/
theorem Intact.step {ι : Type} {t : ι} {o : Op} {r : alertSig.Ans o} {s s' : Alerts × Kept}
    (h : Intact s) (hstep : Alerts.handler.noting Kept.note o s r s')
    (hcond : ReplacesResolved ι t o s r) : Intact s' := by
  obtain ⟨hserve | ⟨⟨e, rfl⟩, hsame⟩, hnote⟩ := hstep
  · cases o with
    | time => rwa [show s' = s from Prod.ext hserve hnote]
    | select alertKey =>
      obtain ⟨rfl, hd⟩ := Prod.mk.inj hserve
      rwa [show s' = s from Prod.ext hd hnote]
    | insertOrReplace alertKey row =>
      obtain ⟨rfl, hd⟩ := Prod.mk.inj hserve
      rw [show s' = (s.1.insert alertKey row, s.2) from Prod.ext hd hnote]
      exact h.insertOrReplace row hcond
    | updateSeen alertKey severity lastSeenAt evidenceJson =>
      obtain ⟨rfl, hd⟩ := Prod.mk.inj hserve
      rw [show s' = (_, s.2) from Prod.ext hd hnote]
      exact h.update fun row => ⟨id, le_rfl, id⟩
    | selectDue now =>
      obtain ⟨rfl, hd⟩ := Prod.mk.inj hserve
      rwa [show s' = s from Prod.ext hd hnote]
    | updateAttempts alertKey lastSeenAt nextEscalationAt =>
      obtain ⟨rfl, hd⟩ := Prod.mk.inj hserve
      rw [show s' = (_, _) from Prod.ext hd hnote]
      exact Intact.escalate h lastSeenAt nextEscalationAt
    | updateAcknowledged alertKey =>
      obtain ⟨rfl, hd⟩ := Prod.mk.inj hserve
      rw [show s' = (_, _) from Prod.ext hd hnote]
      exact Intact.acknowledge h
    | updateResolved alertKey =>
      obtain ⟨rfl, hd⟩ := Prod.mk.inj hserve
      rw [show s' = (_, _) from Prod.ext hd hnote]
      exact Intact.resolve h
  · have hg : s'.2 = s.2 := by
      rw [hnote]
      cases o <;> rfl
    rwa [show s' = s from Prod.ext hsame hg]

/-! ## 4. The result -/

/-- **No acknowledgement and no escalation is lost.**  In every interleaving in which an
`INSERT OR REPLACE` finds no alert that is not resolved, an alert that has been acknowledged since
it was resolved last is acknowledged, and its attempts are at least what the last escalation since
then made of them. -/
theorem acknowledgement_kept {ι : Type} [DecidableEq ι] (d : Alerts)
    {c : Pool ι alertSig (Alerts × Kept) Unit}
    (h : Pool.Reaches ((processes ι).meeting (ReplacesResolved ι)) (Pool.idle (d, Kept.none)) c)
    (alertKey : String) :
    (c.shared.2.acknowledged alertKey = true →
      ∃ row, c.shared.1.lookup alertKey = some row ∧ row.acknowledged = true) ∧
    ∀ n, c.shared.2.floor alertKey = some n →
      ∃ row, c.shared.1.lookup alertKey = some row ∧ n ≤ row.attempts := by
  have hintact : Intact c.shared := by
    refine h.keeps (P := Intact) (fun t o s r s' hs hstep => hs.step hstep.1 hstep.2) ?_ ?_
    · rintro s s' hs rfl
      exact hs
    · constructor
      · intro other hkept
        cases hkept
      · intro other n hkept
        cases hkept
  constructor
  · intro hkept
    obtain ⟨row, hrow, hacknowledged, -⟩ := hintact.acknowledged alertKey hkept
    exact ⟨row, hrow, hacknowledged⟩
  · intro n hkept
    obtain ⟨row, hrow, hfloor, -⟩ := hintact.floor alertKey n hkept
    exact ⟨row, hrow, hfloor⟩

/-! ## 5. Two records of a first occurrence -/

section TwoRecords

open PersistentEscalationLedger

/-- One `record`, one `acknowledge`. -/
def alertCall : Bool → Program Unit
  | false => record ⟨"DB_DOWN", "SEV1", some 10, 5, none⟩ >>= fun _ => pure ()
  | true => acknowledge "DB_DOWN" >>= fun _ => pure ()

/-- The statements as the table serves them, and what is kept of them. -/
def serveNoting : Script alertSig (Alerts × Kept) := fun o s =>
  ((Alerts.serve o s.1).1, (Alerts.serve o s.1).2, Kept.note o s.1 (Alerts.serve o s.1).1 s.2)

def noAlerts : Pool Bool alertSig (Alerts × Kept) Unit := Pool.idle (∅, Kept.none)

def playAlerts (ms : List (Move Bool Bool)) : Pool Bool alertSig (Alerts × Kept) Unit :=
  noAlerts.play (fun _ => serveNoting) alertCall ms

/-- The alert is recorded, then acknowledged, then recorded again. -/
def oneByOne : List (Move Bool Bool) :=
  .spawn false false :: List.replicate 3 (.act false) ++
    .spawn true true :: List.replicate 2 (.act true) ++
    .stop false :: .spawn false false :: List.replicate 3 (.act false)

/-- The row is read by one process, recorded by another and acknowledged; then the first goes
on. -/
def readTooEarly : List (Move Bool Bool) :=
  .spawn false false :: .act false ::
    .spawn true false :: List.replicate 3 (.act true) ++
    .stop true :: .spawn true true :: List.replicate 2 (.act true) ++ [.act false]

theorem serveNoting_picks (t : Bool) : serveNoting.Picks ((processes Bool).handler t) := by
  intro o s
  refine ⟨Or.inl ?_, rfl⟩
  cases o <;> rfl

theorem starts_alertCall (t k : Bool) : (processes Bool).start t (alertCall k) := by
  cases k
  · exact Or.inl ⟨_, rfl⟩
  · exact Or.inr (Or.inr (Or.inr (Or.inl ⟨_, rfl⟩)))

instance ReplacesResolved.decidable (t : Bool) :
    ∀ (o : Op) (s : Alerts × Kept) (r : alertSig.Ans o), Decidable (ReplacesResolved Bool t o s r)
  | .insertOrReplace alertKey _, s, _ =>
    inferInstanceAs (Decidable ((s.1.lookup alertKey).all (·.resolved) = true))
  | .time, _, _ | .select _, _, _ | .updateSeen _ _ _ _, _, _ | .selectDue _, _, _
  | .updateAttempts _ _ _, _, _ | .updateAcknowledged _, _, _ | .updateResolved _, _, _ =>
    isTrue trivial

theorem acknowledgement_kept_oneByOne :
    ((playAlerts oneByOne).shared.2.acknowledged "DB_DOWN" = true →
      ∃ row, (playAlerts oneByOne).shared.1.lookup "DB_DOWN" = some row ∧
        row.acknowledged = true) ∧
    ∀ n, (playAlerts oneByOne).shared.2.floor "DB_DOWN" = some n →
      ∃ row, (playAlerts oneByOne).shared.1.lookup "DB_DOWN" = some row ∧ n ≤ row.attempts :=
  acknowledgement_kept ∅ (Pool.reaches_play_meeting serveNoting_picks noAlerts oneByOne
    (fun t k _ => starts_alertCall t k) (by decide)) "DB_DOWN"

/-- **The acknowledgement is lost** when a `record` that has read no row replaces the row of
another. -/
theorem acknowledgement_lost :
    ¬ ∀ c, Pool.Reaches (processes Bool) noAlerts c →
      c.shared.2.acknowledged "DB_DOWN" = true →
      ∃ row, c.shared.1.lookup "DB_DOWN" = some row ∧ row.acknowledged = true := by
  intro h
  have hreach : Pool.Reaches (processes Bool) noAlerts (playAlerts readTooEarly) :=
    Pool.reaches_play serveNoting_picks starts_alertCall noAlerts readTooEarly
  obtain ⟨row, hrow, hacknowledged⟩ := h _ hreach (by decide)
  have hlost : ((playAlerts readTooEarly).shared.1.lookup "DB_DOWN").map (·.acknowledged) =
      some false := by decide
  rw [hrow, Option.map_some, hacknowledged] at hlost
  cases hlost

end TwoRecords

end Kripto.Monitoring
