/-
# Receipts of migrations and their events

A migration that closes its own transaction has written its receipt and put its event in the chain
before.  A recovery that closes one writes a receipt, too, if the database is at the new head; it
puts nothing in the chain, and it replaces a receipt whose event is there already.

`receipts_agree`: as long as no recovery does that, and none finds the database at the old head
when the receipt has been written, the receipts on disk have their events, and they are those of
the transactions that were closed at their new head.
-/
import Kripto.Deploy.MigrationGuard
import Kripto.Effect.Play

namespace Kripto.Deploy.MigrationGuard

open Effect Effect.Files

/-! ## 1. What a history has come to -/

/-- A transaction whose journal has been removed.  `probed`: the last head the database was found
at. -/
structure Closing where
  transaction : ℕ
  toHead : String
  probed : Option String

/-- `read`: the journal has been read, by a recovery, since it was last written. -/
structure Seen where
  read : Bool
  probed : Option String
  closed : List Closing

namespace Seen

def start : Seen := ⟨false, none, []⟩

/-- The journal is removed. -/
def closing (s : Disk) (g : Seen) : Seen :=
  match s .journal with
  | some (.journal j) =>
    { g with closed := g.closed ++ [⟨j.transactionId, j.migration.toHead, g.probed⟩] }
  | _ => g

end Seen

def closings : Observer stateDir Seen where
  note
    | .look .journal, _, .ok _, g => { g with read := true }
    | .put .journal _, _, .ok _, g => { g with read := false }
    | .ask .probe, _, .ok head, g => { g with probed := some head }
    | .remove .journal false, s, .ok _, g => g.closing s
    | _, _, _, g => g
  note_error o s e g := by
    cases o with
    | look p => cases p <;> rfl
    | put p n => cases p <;> rfl
    | ask q => cases q <;> rfl
    | remove p missingOk => cases p <;> cases missingOk <;> rfl
    | _ => rfl

/-- The receipt an event is about. -/
def Event.digest : Event → Option Receipt
  | .migrationCommitted _ r .. => some r
  | .other _ => none

/-- The event of this receipt is in the chain, on a line of its own. -/
def Recorded (s : Disk) (r : Receipt) : Prop :=
  ∃ a e, audit.chain s = some a ∧ some e ∈ a.lines ∧ e.digest = some r

/-! ## 2. The invariant -/

/-- The receipts, but for those of transactions that are not closed yet. -/
structure Kept (out : ℕ → Prop) (s : Disk) (g : Seen) : Prop where
  recorded : ∀ t r, ¬out t → s (.receipt t) = some (.receipt r) → Recorded s r
  closed : ∀ c ∈ g.closed, ¬out c.transaction ∧
    ((s (.receipt c.transaction)).isSome = true ↔ c.probed = some c.toHead)

/-- **The invariant** of all histories. -/
inductive Sound (s : Disk × Seen) : Prop
  | closed (journal : s.1 .journal = none) (kept : Kept (fun _ => False) s.1 s.2)
  | pending (t : ℕ) (m : Migration) (status : String)
      (journal : s.1 .journal = some (.journal (opened t m status)))
      (kept : Kept (fun t' => t' = t) s.1 s.2)

section Invariant

variable {out : ℕ → Prop} {s s' : Disk} {g g' : Seen} {t : ℕ} {r : Receipt}

theorem Recorded.congr (h : Recorded s r) (hs : s' .audit = s .audit) : Recorded s' r := by
  have hchain : audit.chain s' = audit.chain s := congrArg audit.ofNode hs
  rw [Recorded, hchain]
  exact h

theorem Kept.congr (h : Kept out s g) (haudit : s' .audit = s .audit)
    (hreceipt : ∀ t, s' (.receipt t) = s (.receipt t)) (hg : g'.closed = g.closed) :
    Kept out s' g' where
  recorded t r ht hr := (h.recorded t r ht ((hreceipt t).symm.trans hr)).congr haudit
  closed c hc := by
    rw [hreceipt]
    exact h.closed c (hg ▸ hc)

/-- A receipt nobody counts on yet is written. -/
theorem Kept.write (h : Kept out s g) (ht : out t) (n : Option Node) :
    Kept out (Store.set (F := stateDir) s (.receipt t) n) g := by
  have hset : ∀ p, p ≠ .receipt t → Store.set (F := stateDir) s (.receipt t) n p = s p :=
    fun p hp => Store.set_of_ne (F := stateDir) s n hp
  have hother : ∀ t', ¬out t' →
      Store.set (F := stateDir) s (.receipt t) n (.receipt t') = s (.receipt t') := by
    refine fun t' ht' => hset (.receipt t') ?_
    rintro ⟨⟩
    exact ht' ht
  constructor
  · intro t' r' ht' hr'
    exact (h.recorded t' r' ht' ((hother t' ht').symm.trans hr')).congr (hset .audit nofun)
  · intro c hc
    obtain ⟨hout, hiff⟩ := h.closed c hc
    rw [hother _ hout]
    exact ⟨hout, hiff⟩

/-- An append adds lines, wherever it stops. -/
theorem lines_of_stage {a a' : ChainFile Event} {e : Event} (h : a.Stage e a') {l : Option Event}
    (hl : l ∈ a.lines) : l ∈ a'.lines := by
  cases h with
  | opened | torn | unended => exact hl
  | ended => exact List.mem_append_left _ hl

theorem Kept.stage (h : Kept out s g) {a a' : ChainFile Event} {e : Event}
    (ha : audit.chain s = some a) (hstage : a.Stage e a') :
    Kept out (Store.set (F := stateDir) s .audit (some (.audit a'))) g := by
  have hset : ∀ p, p ≠ .audit →
      Store.set (F := stateDir) s .audit (some (.audit a')) p = s p :=
    fun p hp => Store.set_of_ne (F := stateDir) s _ hp
  have hchain : audit.chain (Store.set (F := stateDir) s .audit (some (.audit a'))) = some a' :=
    audit.chain_set a'
  constructor
  · intro t r ht hr
    obtain ⟨b, e', hb, he', hdigest⟩ := h.recorded t r ht ((hset (.receipt t) nofun).symm.trans hr)
    obtain rfl : a = b := Option.some.inj (ha.symm.trans hb)
    exact ⟨a', e', hchain, lines_of_stage hstage he', hdigest⟩
  · intro c hc
    have hsame := hset (.receipt c.transaction) nofun
    rw [hsame]
    exact h.closed c hc

/-- Nothing of it depends on what the journal was read for, nor on what the database said. -/
theorem Sound.seen (h : Sound (s, g)) (hg : g'.closed = g.closed) : Sound (s, g') := by
  cases h with
  | closed journal kept => exact .closed journal (kept.congr rfl (fun _ => rfl) hg)
  | pending t m status journal kept =>
    exact .pending t m status journal (kept.congr rfl (fun _ => rfl) hg)

/-- **A transaction is closed** as it should be if its receipt, if there is one, is recorded, and
there is one just if the database was found at the new head. -/
theorem sound_closing {m : Migration} {status : String}
    (hj : s .journal = some (.journal (opened t m status))) (h : Kept (fun t' => t' = t) s g)
    (hrecorded : ∀ r, s (.receipt t) = some (.receipt r) → Recorded s r)
    (hhead : (s (.receipt t)).isSome = true ↔ g.probed = some m.toHead) :
    Sound (Store.set (F := stateDir) s .journal none, g.closing s) := by
  have hset : ∀ p, p ≠ .journal → Store.set (F := stateDir) s .journal none p = s p :=
    fun p hp => Store.set_of_ne (F := stateDir) s none hp
  refine .closed (Store.set_self (F := stateDir) s .journal none) ⟨?_, ?_⟩
  · intro t' r _ hr
    have hr' : s (.receipt t') = some (.receipt r) := (hset (.receipt t') nofun).symm.trans hr
    by_cases ht : t' = t
    · subst ht
      exact (hrecorded r hr').congr (hset .audit nofun)
    · exact (h.recorded t' r ht hr').congr (hset .audit nofun)
  · intro c hc
    have hsame := hset (.receipt c.transaction) nofun
    refine ⟨id, ?_⟩
    change (Store.set (F := stateDir) s .journal none (.receipt c.transaction)).isSome = true ↔
      c.probed = some c.toHead
    rw [hsame]
    rw [Seen.closing, hj] at hc
    rcases List.mem_append.mp hc with hc | hc
    · exact (h.closed c hc).2
    · obtain rfl := List.mem_singleton.mp hc
      exact hhead

end Invariant

/-! ## 3. Recovery -/

/-- A token a migration has just made up. -/
def Fresh (t : ℕ) (s : Disk × Seen) : Prop :=
  (s.1 (.receipt t)).isNone = true ∧ ∀ c ∈ s.2.closed, c.transaction ≠ t

/-- The token of a transaction that begins. -/
def begins : Op stateDir → Option ℕ
  | .put .journal (.journal j) => if j.status = "PREPARED" then some j.transactionId else none
  | _ => none

/-- The head a probe has found. -/
def finds : (o : (sig stateDir).Op) → (sig stateDir).Ans o → Option String
  | .ask .probe, .ok head => some head
  | _, _ => none

def pendingJournal (s : Disk) : Option Journal :=
  match s .journal with
  | some (.journal j) => some j
  | _ => none

theorem mem_pendingJournal {s : Disk} {j : Journal} (h : s .journal = some (.journal j)) :
    j ∈ pendingJournal s := by
  rw [pendingJournal, h]
  rfl

/-- A recovery may close the transaction of `j` at this head. -/
def MayClose (j : Journal) (head : String) (s : Disk) : Prop :=
  head ≠ j.migration.toHead ∧
    (head = j.migration.fromHead → (s (.receipt j.transactionId)).isNone = true)

/-- **The condition on the steps of a history.**  Tokens are new; and, if `strict` asks for it, no
recovery finds the database at the new head, nor at the old one when the receipt is there. -/
def Guard (strict : Prop) (o : (sig stateDir).Op) (s : Disk × Seen) (r : (sig stateDir).Ans o) :
    Prop :=
  (∀ t ∈ begins o, Fresh t s) ∧
    (strict → s.2.read = true → ∀ head ∈ finds o r, ∀ j ∈ pendingJournal s.1, MayClose j head s.1)

/-- Everything but reading, writing and removing the journal, and probing the database. -/
def Unnoticed : Op stateDir → Prop
  | .look .journal | .put .journal _ | .remove .journal false | .ask .probe => False
  | _ => True

theorem closings_ignores {o : Op stateDir} (h : Unnoticed o) : closings.Ignores o := by
  intro s r g
  cases o with
  | look p => cases p <;> first | rfl | exact h.elim
  | put p n => cases p <;> first | rfl | exact h.elim
  | remove p missingOk => cases p <;> cases missingOk <;> first | rfl | exact h.elim
  | ask q => cases q <;> first | rfl | exact h.elim
  | _ => rfl

section Steps

variable {mayFail : Bool} {strict : Prop} {s : Disk} {g : Seen}

/-- The handler of a history that meets the condition. -/
abbrev guardedHandler (mayFail : Bool) (strict : Prop) : Handler (sig stateDir) (Disk × Seen) :=
  (handler closings mayFail).meeting (Guard strict)

/-- The database is asked for its head. -/
theorem wp_probe (h : Sound (s, g)) {Q : Except Raised String → Disk × Seen → Prop}
    (hok : ∀ head, (strict → g.read = true → ∀ j, s .journal = some (.journal j) →
      MayClose j head s) → Q (.ok head) (s, { g with probed := some head }))
    (hbad : ∀ e, Q (.error e) (s, g)) :
    wp (guardedHandler mayFail strict) (.keeping Sound) () (ask .probe) Q (s, g) := by
  refine wp_op_meeting h ?_ fun _ e _ => hbad e
  rintro r s' ⟨⟨head, rfl⟩, rfl⟩ hcond
  exact ⟨h.seen rfl, hok head fun hstrict hread j hj =>
    hcond.2 hstrict hread head rfl j (mem_pendingJournal hj)⟩

/-- A transaction is closed. -/
theorem wp_unlinkJournal (h : Sound (s, g)) {Q : Except Raised Unit → Disk × Seen → Prop}
    (hok : Sound (Store.set (F := stateDir) s .journal none, g.closing s) ∧
      Q (.ok ()) (Store.set (F := stateDir) s .journal none, g.closing s))
    (hbad : ∀ e, Q (.error e) (s, g)) :
    wp (guardedHandler mayFail strict) (.keeping Sound) () (unlink .journal) Q (s, g) := by
  refine wp_meeting (wp_op h ?_ fun _ e => hbad e)
  rintro r s' (⟨-, rfl, rfl⟩ | ⟨-, -, rfl, rfl⟩)
  · exact hok
  · exact ⟨h, hbad _⟩

theorem journalOf_opened (t : ℕ) (m : Migration) (status : String) :
    journalOf (some (.journal (opened t m status))) = pure (opened t m status) := by
  simp [journalOf, opened]

/-- **A recovery** closes a transaction that has no receipt, or leaves the journal. -/
theorem wp_recoverMigrationTransaction (h : Sound (s, g))
    {Q : Except Raised Recovery → Disk × Seen → Prop}
    (hok : ∀ res s', Sound s' → s'.1 .journal = none → Q (.ok res) s')
    (hbad : ∀ e s', Sound s' → Q (.error e) s') :
    wp (guardedHandler mayFail True) (.keeping Sound) () recoverMigrationTransaction Q
      (s, g) := by
  refine wp_bind.mpr (wp_meeting (wp_present (closings_ignores trivial) h ?_
    fun _ e => hbad e _ h))
  rw [onOk_ok]
  cases h with
  | closed journal kept =>
    have hjournal : s .journal = none := journal
    rw [hjournal, if_neg (by simp)]
    exact hok _ _ (.closed journal kept) journal
  | pending t m status journal kept =>
    have hjournal : s .journal = some (.journal (opened t m status)) := journal
    have h : Sound (s, g) := .pending t m status journal kept
    rw [hjournal, if_pos Option.isSome_some]
    refine wp_bind.mpr (wp_bind.mpr (wp_look_meeting h (fun _ => ?_) fun _ e => hbad e _ h))
    rw [onOk_ok, hjournal, journalOf_opened]
    have hread : Sound (s, { g with read := true }) := h.seen rfl
    refine ⟨hread, wp_bind.mpr (wp_probe hread (fun head hhead => ?_) fun e => hbad e _ hread)⟩
    obtain ⟨hnew, hold⟩ := hhead trivial rfl _ hjournal
    have hnew' : head ≠ m.toHead := hnew
    have hprobed : Sound (s, { g with read := true, probed := some head }) := h.seen rfl
    rw [onOk_ok, closeTransaction]
    split
    · rename_i hfrom
      have hnone : s (.receipt t) = none := Option.isNone_iff_eq_none.mp (hold hfrom)
      have hclosed := sound_closing (g := { g with read := true, probed := some head }) hjournal
        (kept.congr rfl (fun _ => rfl) rfl) (fun r hr => nomatch hnone.symm.trans hr)
        (by rw [hnone]; simp [hnew'])
      exact wp_bind.mpr (wp_unlinkJournal hprobed
        ⟨hclosed, hok _ _ hclosed (Store.set_self (F := stateDir) s .journal none)⟩
        fun e => hbad e _ hprobed)
    · exact hbad _ _ hprobed

/-! ## 4. Migrations -/

/-- The journal of a migration is there, and no recovery has read it. -/
structure Running (t : ℕ) (m : Migration) (s : Disk) (g : Seen) : Prop where
  journal : ∃ status, s .journal = some (.journal (opened t m status))
  kept : Kept (fun t' => t' = t) s g
  unread : g.read = false

theorem Running.sound {t : ℕ} {m : Migration} (h : Running t m s g) : Sound (s, g) := by
  obtain ⟨status, hjournal⟩ := h.journal
  exact .pending t m status hjournal h.kept

theorem Running.write {t : ℕ} {m : Migration} (h : Running t m s g) (r : Receipt) :
    Running t m (Store.set (F := stateDir) s (.receipt t) (some (.receipt r))) g := by
  have hne : Place.journal ≠ .receipt t := nofun
  obtain ⟨status, hjournal⟩ := h.journal
  exact ⟨⟨status, (Store.set_of_ne (F := stateDir) s _ hne).trans hjournal⟩,
    h.kept.write rfl _, h.unread⟩

theorem Running.stage {t : ℕ} {m : Migration} (h : Running t m s g) {a a' : ChainFile Event}
    {e : Event} (ha : audit.chain s = some a) (hstage : a.Stage e a') :
    Running t m (Store.set (F := stateDir) s .audit (some (.audit a'))) g := by
  have hne : Place.journal ≠ .audit := by simp
  obtain ⟨status, hjournal⟩ := h.journal
  exact ⟨⟨status, (Store.set_of_ne (F := stateDir) s _ hne).trans hjournal⟩,
    h.kept.stage ha hstage, h.unread⟩

/-- The event of the receipt is in the chain: the transaction is closed. -/
theorem wp_closeRecorded {t : ℕ} {m : Migration} (h : Running t m s g) {r : Receipt}
    (hreceipt : s (.receipt t) = some (.receipt r)) (hrecorded : Recorded s r)
    (hprobed : g.probed = some m.toHead) {Q : Except Raised Unit → Disk × Seen → Prop}
    (hQ : ∀ r s', Sound s' → Q r s') :
    wp (guardedHandler mayFail strict) (.keeping Sound) () (unlink .journal) Q (s, g) := by
  obtain ⟨status, hjournal⟩ := h.journal
  have hclosed := sound_closing hjournal h.kept (fun r' hr' => by
    obtain rfl : r = r' := Node.receipt.inj (Option.some.inj (hreceipt.symm.trans hr'))
    exact hrecorded) (by simp [hreceipt, hprobed])
  exact wp_unlinkJournal h.sound ⟨hclosed, hQ _ _ hclosed⟩ fun e => hQ _ _ h.sound

/-- The receipt is read, its event is added to the chain, and the transaction is closed. -/
theorem wp_recordReceipt {t : ℕ} {m : Migration} (h : Running t m s g) {r : Receipt}
    (hreceipt : s (.receipt t) = some (.receipt r)) (hprobed : g.probed = some m.toHead)
    {Q : Except Raised Unit → Disk × Seen → Prop} (hQ : ∀ r s', Sound s' → Q r s') :
    wp (guardedHandler mayFail strict) (.keeping Sound) () (do
      let digest ← digestReceipt t
      audit.appendEvent (.migrationCommitted t digest m.fromHead m.toHead m.candidateTree)
      unlink .journal) Q (s, g) := by
  refine wp_bind.mpr (wp_bind.mpr (wp_meeting (wp_look
    (closings_ignores (o := .look (.receipt t)) trivial) h.sound ?_ fun _ e => hQ _ _ h.sound)))
  rw [onOk_ok, hreceipt]
  refine wp_bind.mpr (wp_meeting (audit.wp_appendEvent
    (closings_ignores (o := .look .audit) trivial)
    (fun n => closings_ignores (o := .put .audit n) trivial) _ h.sound
    (fun a a' ha hstage => (h.stage ha hstage).sound) (fun a ha hlast => ?_)
    (fun e _ => hQ _ _ h.sound) fun e a a' _ ha hstage => hQ _ _ (h.stage ha hstage).sound))
  have hne : Place.receipt t ≠ .audit := nofun
  have hchain := audit.chain_set (s := s)
    (a.ended (.migrationCommitted t r m.fromHead m.toHead m.candidateTree))
  have hline : some (Event.migrationCommitted t r m.fromHead m.toHead m.candidateTree) ∈
      (a.ended (.migrationCommitted t r m.fromHead m.toHead m.candidateTree)).lines := by
    simp [ChainFile.ended, ChainFile.joined, hlast]
  exact wp_closeRecorded (h.stage ha .ended)
    ((Store.set_of_ne (F := stateDir) s _ hne).trans hreceipt) ⟨_, _, hchain, hline, rfl⟩
    hprobed hQ

/-- The journal is written, for the first time or with another status. -/
theorem wp_writeJournal {t : ℕ} {m : Migration} {status : String} (h : Sound (s, g))
    (hkept : Kept (fun t' => t' = t) s g ∨ status = "PREPARED" ∧ s .journal = none)
    {Q : Except Raised Unit → Disk × Seen → Prop}
    (hok : ∀ s', Running t m s' { g with read := false } →
      Q (.ok ()) (s', { g with read := false }))
    (hbad : ∀ e, Q (.error e) (s, g)) :
    wp (guardedHandler mayFail strict) (.keeping Sound) () (writeJournal t m status) Q
      (s, g) := by
  refine wp_op_meeting h ?_ fun _ e _ => hbad e
  rintro r s' ⟨rfl, rfl⟩ hfresh
  have hset : ∀ p, p ≠ .journal → Store.set (F := stateDir) s .journal
      (some (.journal (opened t m status))) p = s p :=
    fun p hp => Store.set_of_ne (F := stateDir) s _ hp
  have hkept' : Kept (fun t' => t' = t) s g := by
    rcases hkept with hkept | ⟨rfl, hnone⟩
    · exact hkept
    obtain ⟨-, hnew⟩ : Fresh t (s, g) := hfresh.1 t rfl
    cases h with
    | closed _ kept =>
      exact ⟨fun t' r _ hr => kept.recorded t' r id hr,
        fun c hc => ⟨hnew c hc, (kept.closed c hc).2⟩⟩
    | pending _ _ _ journal _ => exact nomatch hnone.symm.trans journal
  have hrunning : Running t m (Store.set (F := stateDir) s .journal
      (some (.journal (opened t m status)))) { g with read := false } :=
    ⟨⟨status, Store.set_self (F := stateDir) s _ _⟩,
      hkept'.congr (hset .audit nofun) (fun t' => hset (.receipt t') nofun) rfl, rfl⟩
  exact ⟨hrunning.sound, hok _ hrunning⟩

theorem wp_migrateDatabase {t : ℕ} {m : Migration} (h : Sound (s, g)) (hnone : s .journal = none)
    {Q : Except Raised Unit → Disk × Seen → Prop}
    (hok : ∀ s' g', Running t m s' g' → Q (.ok ()) (s', g'))
    (hbad : ∀ e s', Sound s' → Q (.error e) s') :
    wp (guardedHandler mayFail strict) (.keeping Sound) () (migrateDatabase t m) Q (s, g) := by
  refine wp_bind.mpr (wp_writeJournal h (.inr ⟨rfl, hnone⟩) (fun s₁ h₁ => ?_) fun e => hbad e _ h)
  refine wp_bind.mpr (wp_meeting (wp_ask (closings_ignores (o := .ask .command) trivial) h₁.sound
    (fun status => ?_) fun _ e => hbad e _ h₁.sound))
  rw [onOk_ok]
  split
  · exact hbad _ _ h₁.sound
  · exact wp_writeJournal h₁.sound (.inl h₁.kept) (fun s₂ h₂ => hok s₂ _ h₂)
      fun e => hbad e _ h₁.sound

/-- **The three commits.** -/
theorem wp_commitMigration {t : ℕ} {m : Migration} {observed : String} (h : Running t m s g)
    (hobserved : g.probed = some m.toHead) {Q : Except Raised Unit → Disk × Seen → Prop}
    (hQ : ∀ r s', Sound s' → Q r s') :
    wp (guardedHandler mayFail strict) (.keeping Sound) () (commitMigration t m observed) Q
      (s, g) := by
  refine wp_bind.mpr (wp_bind.mpr (wp_meeting (wp_ask (closings_ignores (o := .ask .now) trivial)
    h.sound (fun now => ?_) fun _ e => hQ _ _ h.sound)))
  rw [onOk_ok]
  refine wp_meeting (wp_put (closings_ignores (o := .put (.receipt t) _) trivial) h.sound
    ⟨(h.write _).sound, ?_⟩ fun _ e => hQ _ _ h.sound)
  exact wp_recordReceipt (h.write _) (Store.set_self (F := stateDir) s _ _) hobserved hQ

theorem wp_migrate {t : ℕ} {m : Migration} (h : Sound (s, g)) (hnone : s .journal = none)
    {Q : Except Raised Unit → Disk × Seen → Prop} (hQ : ∀ r s', Sound s' → Q r s') :
    wp (guardedHandler mayFail strict) (.keeping Sound) () (migrate t m) Q (s, g) := by
  refine wp_bind.mpr (wp_migrateDatabase h hnone (fun s₁ g₁ h₁ => ?_) fun e => hQ _)
  refine wp_bind.mpr (wp_probe h₁.sound (fun head _ => ?_) fun e => hQ _ _ h₁.sound)
  have hprobed : Running t m s₁ { g₁ with probed := some head } :=
    ⟨h₁.journal, h₁.kept.congr rfl (fun _ => rfl) rfl, h₁.unread⟩
  rw [onOk_ok]
  split
  · exact hQ _ _ hprobed.sound
  · rename_i hhead
    have hhead' : head = m.toHead := not_not.mp hhead
    exact wp_commitMigration hprobed (congrArg some hhead') hQ

/-- What the checks find out does not matter here. -/
theorem wp_prepare {plan : Plan} {commit : Option String} (h : Sound (s, g))
    {Q : Except Raised Migration → Disk × Seen → Prop}
    (hQ : ∀ r g', g'.closed = g.closed → Q r (s, g')) :
    wp (guardedHandler mayFail strict) (.keeping Sound) () (prepare plan commit) Q (s, g) := by
  refine wp_bind.mpr (wp_meeting (wp_ask (closings_ignores (o := .ask .trees) trivial) h
    (fun trees => ?_) fun _ e => hQ _ _ rfl))
  refine wp_bind.mpr (wp_meeting (wp_ask (closings_ignores (o := .ask (.backup _ _)) trivial) h
    (fun backup => ?_) fun _ e => hQ _ _ rfl))
  refine wp_bind.mpr (wp_probe h (fun head _ => ?_) fun e => hQ _ _ rfl)
  rw [onOk_ok]
  split
  · exact hQ _ _ rfl
  · exact hQ _ _ rfl

/-- **A migration keeps the invariant**, wherever it fails or is cut short. -/
theorem wp_runGuardedMigration {t : ℕ} {commit : Option String} (h : Sound (s, g))
    {Q : Except Raised Recovery → Disk × Seen → Prop} (hQ : ∀ r s', Sound s' → Q r s') :
    wp (guardedHandler mayFail True) (.keeping Sound) () (runGuardedMigration t commit) Q
      (s, g) := by
  refine wp_bind.mpr (wp_meeting (wp_ask (closings_ignores (o := .ask .conflict) trivial) h
    (fun clear => ?_) fun _ e => hQ _ _ h))
  rw [onOk_ok]
  split
  case isFalse => exact hQ _ _ h
  refine wp_bind.mpr (wp_recoverMigrationTransaction h (fun recovery s₁ h₁ hnone => ?_)
    fun e s' h' => hQ _ s' h')
  obtain ⟨s₁, g₁⟩ := s₁
  refine wp_bind.mpr (wp_meeting (wp_ask (closings_ignores (o := .ask .plan) trivial) h₁
    (fun plan => ?_) fun _ e => hQ _ _ h₁))
  rw [onOk_ok]
  rcases plan with _ | plan
  · exact hQ _ _ h₁
  refine wp_bind.mpr (wp_prepare h₁ fun r g₂ hg₂ => ?_)
  have h₂ : Sound (s₁, g₂) := h₁.seen hg₂
  rcases r with e | m
  · exact hQ _ _ h₂
  refine wp_bind.mpr (wp_migrate h₂ hnone fun r s' h' => ?_)
  rcases r with e | u
  · exact hQ _ _ h'
  · exact hQ _ _ h'

end Steps

/-! ## 5. Histories -/

inductive Call
  | migrate (t : ℕ) (commit : Option String)
  | recover

/-- Migrations and recoveries in one state directory, each of which may fail or be cut short. -/
def crashing : Session.System (sig stateDir) (Disk × Seen) Recovery Call Empty where
  body := fun
    | .migrate t commit => runGuardedMigration t commit
    | .recover => recoverMigrationTransaction
  handler := fun _ => handler closings true
  lose := fun _ s => s
  idle := fun _ _ _ => False

/-- The histories that meet a condition; tokens are new in all of them. -/
abbrev guarded (strict : Prop) : Session.System (sig stateDir) (Disk × Seen) Recovery Call Empty :=
  crashing.meeting fun _ => Guard strict

theorem wp_call (k : Call) {s : Disk × Seen} (h : Sound s) :
    wp ((guarded True).handler k) (.keeping Sound) () ((guarded True).body k) (fun _ => Sound)
      s := by
  cases k with
  | migrate t commit => exact wp_runGuardedMigration h fun _ _ h' => h'
  | recover => exact wp_recoverMigrationTransaction h (fun _ _ h' _ => h') fun _ _ h' => h'

/-- **The invariant holds in every history.** -/
theorem sound_of_session {s s₁ : Disk × Seen}
    {tr : List (Effect.Event (sig stateDir) Recovery Call Empty)}
    (h : Session (guarded True) s tr s₁) (hs : Sound s) : Sound s₁ := by
  exact h.keeping (fun k _ hs => wp_call k hs) (fun _ _ hs => hs) nofun hs

/-- A state directory between transactions, before the first one we look at. -/
structure Beginning (s : Disk) : Prop where
  journal : s .journal = none
  recorded : ∀ t r, s (.receipt t) = some (.receipt r) → Recorded s r

theorem Beginning.sound {s : Disk} (h : Beginning s) : Sound (s, .start) :=
  .closed h.journal ⟨fun t r _ hr => h.recorded t r hr, nofun⟩

/-- The receipts and the chain agree, and so do the receipts and what the database said. -/
structure Agree (s : Disk × Seen) : Prop where
  recorded : ∀ t r, s.1 (.receipt t) = some (.receipt r) →
    ∃ a e, audit.chain s.1 = some a ∧ e ∈ a.events ∧ e.digest = some r
  closed : ∀ c ∈ s.2.closed,
    (s.1 (.receipt c.transaction)).isSome = true ↔ c.probed = some c.toHead

theorem Recorded.event {s : Disk} {r : Receipt} (h : Recorded s r) :
    ∃ a e, audit.chain s = some a ∧ e ∈ a.events ∧ e.digest = some r := by
  obtain ⟨a, e, ha, he, hdigest⟩ := h
  refine ⟨a, e, ha, ?_, hdigest⟩
  rw [ChainFile.events, List.mem_filterMap]
  exact ⟨some e, List.mem_append_left _ he, rfl⟩

/-- **Receipts and events agree** after every history in which no recovery finds the database at
the new head, nor at the old one when the receipt has been written. -/
theorem receipts_agree {s : Disk} {s₁ : Disk × Seen}
    {tr : List (Effect.Event (sig stateDir) Recovery Call Empty)} (hs : Beginning s)
    (h : Session (guarded True) (s, .start) tr s₁) (hjournal : s₁.1 .journal = none) :
    Agree s₁ := by
  have hs₁ : Sound s₁ := sound_of_session h hs.sound
  cases hs₁ with
  | closed _ kept =>
    exact ⟨fun t r hr => (kept.recorded t r id hr).event, fun c hc => (kept.closed c hc).2⟩
  | pending t m status journal _ => exact nomatch hjournal.symm.trans journal

/-! ## 6. A migration that is killed -/

section Killed

instance (t : ℕ) (s : Disk × Seen) : Decidable (Fresh t s) := inferInstanceAs (Decidable (_ ∧ _))

instance (j : Journal) (head : String) (s : Disk) : Decidable (MayClose j head s) :=
  inferInstanceAs (Decidable (_ ∧ _))

instance (strict : Prop) [Decidable strict] (o : (sig stateDir).Op) (s : Disk × Seen)
    (r : (sig stateDir).Ans o) : Decidable (Guard strict o s r) :=
  inferInstanceAs (Decidable (_ ∧ _))

def diskBefore : Disk := fun _ => none

theorem diskBefore_beginning : Beginning diskBefore := ⟨rfl, nofun⟩

/-- The database goes from "a" to "b" with the command. -/
def migrating : Outside stateDir where
  answer q s := match q with
    | .conflict => true
    | .plan => some ⟨"a", "b", ["b"], "contract"⟩
    | .trees => ("old", "new")
    | .backup .. => ⟨"backup", "drill", "provenance", none⟩
    | .probe => if (s .journal).isSome then "b" else "a"
    | .command => 0
    | .now => "now"
  leaves _ := none
  fails _ _ := none

theorem migrating_picks : (migrating.script closings).Picks (handler closings true) :=
  script_picks (.inr fun _ _ => rfl)

/-- The migration when nothing goes wrong. -/
def finished : Disk × Seen :=
  ((runGuardedMigration 7 none).play (migrating.script closings) (diskBefore, .start)).2

theorem receipts_agree_finished :
    (finished.1 (.receipt 7)).isSome = true ∧ Agree finished := by
  have hmeets : (runGuardedMigration 7 none).Meets (migrating.script closings) (Guard True)
      (diskBefore, .start) := by decide
  have hruns : ∃ r, Runs ((guarded True).handler (.migrate 7 none))
      ((guarded True).body (.migrate 7 none)) (diskBefore, .start) r finished :=
    ⟨_, runs_play_meeting migrating_picks hmeets⟩
  obtain ⟨r, hruns⟩ := hruns
  exact ⟨rfl, receipts_agree diskBefore_beginning (.done _ r hruns (.nil _)) rfl⟩

/-- The migration is killed when its receipt has been written. -/
def killed : Disk × Seen :=
  ((runGuardedMigration 7 none).playFor (migrating.script closings) 13 (diskBefore, .start)).2

/-- The recovery that closes it. -/
def recovered : Disk × Seen :=
  (recoverMigrationTransaction.play (migrating.script closings) killed).2

theorem session_recovered : ∃ r, Session (guarded False) (diskBefore, .start)
    [.crashed (.migrate 7 none), .done .recover r] recovered := by
  have hmeets : (runGuardedMigration 7 none).Meets (migrating.script closings) (Guard False)
      (diskBefore, .start) := by decide
  have hmeets' : recoverMigrationTransaction.Meets (migrating.script closings) (Guard False)
      killed := by decide
  have hexec : ∃ p, Exec ((guarded False).handler (.migrate 7 none))
      ((guarded False).body (.migrate 7 none)) (diskBefore, .start) p killed :=
    ⟨_, exec_playFor_meeting migrating_picks 13 hmeets⟩
  have hruns : ∃ r, Runs ((guarded False).handler .recover) ((guarded False).body .recover) killed r
      recovered := ⟨_, runs_play_meeting migrating_picks hmeets'⟩
  obtain ⟨p, hexec⟩ := hexec
  obtain ⟨r, hruns⟩ := hruns
  exact ⟨r, .crashed _ p hexec (.done _ r hruns (.nil _))⟩

/-- **A receipt without an event.**  The transaction is closed by the recovery, and nothing is put
in the chain. -/
theorem receipt_unrecorded :
    ¬∀ (s : Disk) tr s₁, Beginning s → Session (guarded False) (s, .start) tr s₁ →
      s₁.1 .journal = none → Agree s₁ := by
  intro h
  obtain ⟨r, hsession⟩ := session_recovered
  have hjournal : (recovered.1 .journal).isNone = true := by decide
  have hagree := h _ _ _ diskBefore_beginning hsession (Option.isNone_iff_eq_none.mp hjournal)
  have hchain : audit.chain recovered.1 = some .empty := rfl
  obtain ⟨receipt, hreceipt⟩ : ∃ r, recovered.1 (.receipt 7) = some (.receipt r) := ⟨_, rfl⟩
  obtain ⟨a, e, ha, he, -⟩ := hagree.recorded 7 receipt hreceipt
  obtain rfl : ChainFile.empty = a := Option.some.inj (hchain.symm.trans ha)
  exact nomatch he

end Killed

end Kripto.Deploy.MigrationGuard
