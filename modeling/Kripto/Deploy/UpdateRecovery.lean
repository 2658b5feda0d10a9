/-
# Recovering an update

What has to be active between two transactions is the directory of the last update that removed
its journal itself, or, if none has, the one of the beginning.  `Sound` says that it is, or that
the journal is there and everything that is needed to bring it back; a recovery keeps this
wherever it fails or is cut short (`wp_recover`).
-/
import Kripto.Deploy.ReleaseUpdate

namespace Kripto.Deploy.ReleaseUpdate

open Effect Effect.Files

variable {T : Type}

/-! ## 1. What a history has come to -/

/-- `read`: the journal has been read, by a recovery, since it was last written.  `finals`: the
updates that removed their journal themselves, with what was active then. -/
structure Seen (T : Type) where
  read : Bool
  finals : List (ℕ × Dir T)

namespace Seen

def start : Seen T := ⟨false, []⟩

/-- The directory that has to be active between transactions. -/
def current (g : Seen T) (first : Dir T) : Dir T := (g.finals.getLast?.map Prod.snd).getD first

def tokens (g : Seen T) : List ℕ := g.finals.map Prod.fst

/-- The journal is removed. -/
def closing (s : Disk T) (g : Seen T) : Seen T :=
  match s .journal, s .active with
  | some (.journal j), some (.dir d) =>
    if g.read then g else { g with finals := g.finals ++ j.backup.toList.map fun t => (t, d) }
  | _, _ => g

end Seen

def journals : Observer (releases T) (Seen T) where
  note
    | .look .journal, _, .ok _, g => { g with read := true }
    | .put .journal _, _, .ok _, g => { g with read := false }
    | .remove .journal false, s, .ok _, g => g.closing s
    | _, _, _, g => g
  note_error o s e g := by
    cases o with
    | look p => cases p <;> rfl
    | put p n => cases p <;> rfl
    | remove p missingOk => cases p <;> cases missingOk <;> rfl
    | _ => rfl

/-- The updates whose acceptance is in the chain. -/
def Event.update : Event T → Option ℕ
  | .updateAccepted t .. => some t
  | _ => none

def accepted (s : Disk T) : List ℕ :=
  ((audit.chain s).elim [] ChainFile.events).filterMap Event.update

/-! ## 2. The invariant -/

/-- Where the directory `pre` of before update `t` is. -/
inductive Placed (t : ℕ) (pre : Dir T) (s : Disk T) : Prop
  | home (backup : s (.backup t) = none) (active : s .active = some (.dir pre))
  | away (backup : s (.backup t) = some (.dir pre)) (active : s .active = none)
  | replaced (d : Dir T) (backup : s (.backup t) = some (.dir pre))
      (active : s .active = some (.dir d)) (origin : d.origin = some t)

/-- **An update that can be rolled back.** -/
structure Pending (active : String) (t : ℕ) (pre : Dir T) (j : Journal) (s : Disk T) : Prop where
  journal : s .journal = some (.journal j)
  written : ∃ status, j = opened active t status
  old : pre.origin ≠ some t
  placed : Placed t pre s

/-- The chain holds these acceptances, and none that lacks its newline.  Nothing is said unless
`truth` asks for it. -/
def Told (truth : Prop) (updates : List ℕ) (s : Disk T) : Prop :=
  truth → accepted s = updates ∧ ∀ a, audit.chain s = some a → ∀ e, a.last ≠ some (some e)

/-- **The invariant** of all histories: between transactions the right directory is active, and
with a journal everything is there to bring it back.  `earlier`: the acceptances of before. -/
inductive Sound (active : String) (first : Dir T) (truth : Prop) (earlier : List ℕ)
    (s : Disk T × Seen T) : Prop
  | closed (journal : s.1 .journal = none) (active : s.1 .active = some (.dir (s.2.current first)))
      (told : Told truth (earlier ++ s.2.tokens) s.1)
      (own : ∀ f ∈ s.2.finals, f.2.origin = some f.1)
  | pending (t : ℕ) (j : Journal) (h : Pending active t (s.2.current first) j s.1)
      (told : Told truth (earlier ++ s.2.tokens) s.1 ∨
        (truth → accepted s.1 = earlier ++ s.2.tokens ++ [t]))
      (own : ∀ f ∈ s.2.finals, f.2.origin = some f.1)

/-- Places nothing of this depends on. -/
def quiet : Place → Bool
  | .active | .journal | .audit | .backup _ => false
  | _ => true

section Quiet

variable {active : String} {first : Dir T} {truth : Prop} {earlier : List ℕ} {t : ℕ}
  {pre : Dir T} {j : Journal} {s s' : Disk T} {g : Seen T}

theorem Placed.congr (h : Placed t pre s) (hactive : s' .active = s .active)
    (hbackup : s' (.backup t) = s (.backup t)) : Placed t pre s' := by
  cases h with
  | home backup active => exact .home (hbackup.trans backup) (hactive.trans active)
  | away backup active => exact .away (hbackup.trans backup) (hactive.trans active)
  | replaced d backup active origin =>
    exact .replaced d (hbackup.trans backup) (hactive.trans active) origin

theorem Pending.congr (h : Pending active t pre j s) (hs : ∀ p, quiet p = false → p ≠ .audit →
    s' p = s p) : Pending active t pre j s' where
  journal := (hs .journal rfl nofun).trans h.journal
  written := h.written
  old := h.old
  placed := h.placed.congr (hs .active rfl nofun) (hs (.backup t) rfl nofun)

/-- The chain is all that matters. -/
theorem Told.congr {updates : List ℕ} (h : Told truth updates s) (hs : s' .audit = s .audit) :
    Told truth updates s' := by
  have hchain : audit.chain s' = audit.chain s := congrArg audit.ofNode hs
  intro htruth
  rw [accepted, hchain]
  exact h htruth

theorem accepted_congr (hs : s' .audit = s .audit) : accepted s' = accepted s := by
  have hchain : audit.chain s' = audit.chain s := congrArg audit.ofNode hs
  rw [accepted, hchain, accepted]

theorem Sound.congr (h : Sound active first truth earlier (s, g))
    (hs : ∀ p, quiet p = false → s' p = s p) : Sound active first truth earlier (s', g) := by
  cases h with
  | closed journal active told own =>
    exact .closed ((hs _ rfl).trans journal) ((hs _ rfl).trans active) (told.congr (hs _ rfl)) own
  | pending t j h told own =>
    refine .pending t j (h.congr fun p hp _ => hs p hp) ?_ own
    rcases told with told | told
    · exact .inl (told.congr (hs _ rfl))
    · exact .inr fun htruth => (accepted_congr (hs _ rfl)).trans (told htruth)

end Quiet

/-! ## 3. Operations nobody notices -/

/-- Everything but reading, writing and removing the journal. -/
def Unnoticed : Op (releases T) → Prop
  | .look .journal | .put .journal _ | .remove .journal false => False
  | _ => True

theorem journals_ignores {o : Op (releases T)} (h : Unnoticed o) :
    (journals (T := T)).Ignores o := by
  intro s r g
  cases o with
  | look p =>
    cases p with
    | journal => exact h.elim
    | _ => rfl
  | put p n =>
    cases p with
    | journal => exact h.elim
    | _ => rfl
  | remove p missingOk =>
    cases p with
    | journal =>
      cases missingOk with
      | false => exact h.elim
      | true => rfl
    | _ => rfl
  | _ => rfl

namespace Unnoticed

theorem move {src dst : Place} : (journals (T := T)).Ignores (.move src dst) :=
  journals_ignores trivial

theorem present {p : Place} : (journals (T := T)).Ignores (.present p) := journals_ignores trivial

theorem removeOk {p : Place} : (journals (T := T)).Ignores (.remove p true) := by
  refine journals_ignores ?_
  cases p <;> trivial

theorem spoil {part : Place → Bool} : (journals (T := T)).Ignores (.spoil part) :=
  journals_ignores trivial

theorem clear {part : Place → Bool} : (journals (T := T)).Ignores (.clear part) :=
  journals_ignores trivial

theorem ask {q : Ask T} : journals.Ignores (.ask q) := journals_ignores trivial

theorem look {p : Place} (hp : p ≠ .journal) : (journals (T := T)).Ignores (.look p) := by
  refine journals_ignores ?_
  cases p with
  | journal => exact hp rfl
  | _ => trivial

theorem put {p : Place} (hp : p ≠ .journal) {n : Node T} : journals.Ignores (.put p n) := by
  refine journals_ignores ?_
  cases p with
  | journal => exact hp rfl
  | _ => trivial

end Unnoticed

/-! ## 4. Recovery -/

section Recovery

variable {active : String} {first : Dir T} {truth : Prop} {earlier : List ℕ} {mayFail : Bool}
  {t : ℕ} {j : Journal} {s : Disk T} {g : Seen T}

/-- A recovery has read the journal and is about to bring the directory of before back. -/
structure Returning (active : String) (first : Dir T) (truth : Prop) (earlier : List ℕ) (t : ℕ)
    (j : Journal) (s : Disk T) (g : Seen T) : Prop where
  pending : Pending active t (g.current first) j s
  told : Told truth (earlier ++ g.tokens) s
  own : ∀ f ∈ g.finals, f.2.origin = some f.1
  read : g.read = true

theorem Returning.sound (h : Returning active first truth earlier t j s g) :
    Sound active first truth earlier (s, g) :=
  .pending t j h.pending (.inl h.told) h.own

/-- The active directory and the backup are moved about. -/
theorem Returning.replace (h : Returning active first truth earlier t j s g) {s' : Disk T}
    (hs : ∀ p, quiet p = false → p ≠ .active → (∀ t', p ≠ .backup t') → s' p = s p)
    (hplaced : Placed t (g.current first) s') : Returning active first truth earlier t j s' g where
  pending := ⟨(hs .journal rfl nofun fun _ => nofun).trans h.pending.journal, h.pending.written,
    h.pending.old, hplaced⟩
  told := h.told.congr (hs .audit rfl nofun fun _ => nofun)
  own := h.own
  read := h.read

theorem Returning.other (h : Returning active first truth earlier t j s g) {p : Place}
    {s' : Disk T} (hp : quiet p = true) (hs : ∀ q, q ≠ p → s' q = s q) :
    Returning active first truth earlier t j s' g := by
  have hsame : ∀ q, quiet q = false → s' q = s q := by
    refine fun q hq => hs q ?_
    rintro rfl
    exact nomatch hp.symm.trans hq
  exact h.replace (fun q hq _ _ => hsame q hq)
    (h.pending.placed.congr (hsame .active rfl) (hsame (.backup t) rfl))

/-- Something can go wrong with a recovery of itself: there has to be a backup, unless the
journal says that there need not be one. -/
def BackupThere (s : Disk T) : Prop :=
  ∀ j t, s .journal = some (.journal j) → j.backup = some t → j.status ≠ "PREPARED" →
    (s (.backup t)).isSome = true

section RestoreBackup

variable {Q : Except Raised Unit → Disk T × Seen T → Prop} {u : ℕ}

/-- The undo of the first rename, when the second has failed. -/
theorem wp_undo (h : Returning active first truth earlier t j s g)
    (hbackup : s (.backup t) = some (.dir (g.current first)))
    {d : Dir T} (hfailed : s (.failed u) = some (.dir d)) (horigin : d.origin = some t) (e : Raised)
    (hbad : ∀ e s', Returning active first truth earlier t j s' g → Q (.error e) (s', g)) :
    wp (handler journals mayFail) (.keeping (Sound active first truth earlier)) ()
      (do move (.failed u) .active; .raise e) Q (s, g) := by
  refine wp_bind.mpr (wp_move Unnoticed.move h.sound (fun _ => ?_) fun _ e => hbad e s h)
  have hsame : ∀ p, p ≠ .failed u → p ≠ .active →
      Store.moved (F := releases T) s (.failed u) .active p = s p :=
    fun p hp hp' => Store.moved_of_ne (F := releases T) s hp hp'
  have h' : Returning active first truth earlier t j
      (Store.moved (F := releases T) s (.failed u) .active) g := by
    refine h.replace (fun p hp hne _ => hsame p ?_ hne) (.replaced d ?_ ?_ horigin)
    · rintro rfl
      exact nomatch hp
    · exact (hsame (.backup t) nofun nofun).trans hbackup
    · exact (Store.moved_dst (F := releases T) s _ _).trans hfailed
  exact ⟨h'.sound, hbad e _ h'⟩

/-- The backup takes the place of what is active. -/
theorem wp_swapIn (h : Returning active first truth earlier t j s g) {d : Dir T}
    (hbackup : s (.backup t) = some (.dir (g.current first))) (hactive : s .active = some (.dir d))
    (horigin : d.origin = some t)
    (hok : ∀ s', Returning active first truth earlier t j s' g → s' (.backup t) = none →
      s' .active = some (.dir (g.current first)) → Q (.ok ()) (s', g))
    (hbad : ∀ e s', mayFail = true ∨ s (.failed u) ≠ none →
      Returning active first truth earlier t j s' g → Q (.error e) (s', g)) :
    wp (handler journals mayFail) (.keeping (Sound active first truth earlier)) ()
      (swapIn (.backup t) (.failed u)) Q (s, g) := by
  refine wp_bind.mpr (wp_move Unnoticed.move h.sound (fun _ => ?_) fun hwhy e => hbad e s ?_ h)
  case refine_2 =>
    refine hwhy.imp_right fun hcannot hfailed => hcannot ⟨by rw [hactive]; rfl, ?_⟩
    rw [hfailed]
    exact nofun
  have hsame : ∀ p, p ≠ .active → p ≠ .failed u →
      Store.moved (F := releases T) s .active (.failed u) p = s p :=
    fun p hp hp' => Store.moved_of_ne (F := releases T) s hp hp'
  have hne : Place.active ≠ .failed u := nofun
  have hnone : Store.moved (F := releases T) s .active (.failed u) .active = none :=
    Store.moved_src (F := releases T) s hne
  have hkept : Store.moved (F := releases T) s .active (.failed u) (.backup t) =
      some (.dir (g.current first)) := (hsame (.backup t) nofun nofun).trans hbackup
  have hfailed : Store.moved (F := releases T) s .active (.failed u) (.failed u) =
      some (.dir d) := (Store.moved_dst (F := releases T) s _ _).trans hactive
  generalize Store.moved (F := releases T) s .active (.failed u) = s₁ at hsame hnone hkept hfailed ⊢
  have h₁ : Returning active first truth earlier t j s₁ g := by
    refine h.replace (fun p hp hne _ => hsame p hne ?_) (.away hkept hnone)
    rintro rfl
    exact nomatch hp
  refine ⟨h₁.sound, wp_tryCatch.mpr (wp_move Unnoticed.move h₁.sound (fun _ => ?_) ?_)⟩
  · have hsame₂ : ∀ p, p ≠ .backup t → p ≠ .active →
        Store.moved (F := releases T) s₁ (.backup t) .active p = s₁ p :=
      fun p hp hp' => Store.moved_of_ne (F := releases T) s₁ hp hp'
    have hne₂ : Place.backup t ≠ .active := nofun
    have hback : Store.moved (F := releases T) s₁ (.backup t) .active .active =
        some (.dir (g.current first)) := (Store.moved_dst (F := releases T) s₁ _ _).trans hkept
    have hgone : Store.moved (F := releases T) s₁ (.backup t) .active (.backup t) = none :=
      Store.moved_src (F := releases T) s₁ hne₂
    have h₂ := h₁.replace (fun p _ hp hp' => hsame₂ p (hp' t) hp) (.home hgone hback)
    exact ⟨h₂.sound, hok _ h₂ hgone hback⟩
  · intro hwhy e
    have hmay : mayFail = true := by
      refine hwhy.resolve_right (not_not.mpr ⟨by rw [hkept]; rfl, ?_⟩)
      rw [hnone]
      exact nofun
    exact wp_undo h₁ hkept hfailed horigin e fun e' s' h' => hbad e' s' (.inl hmay) h'

/-- Why putting the directory back can fail. -/
def Hindered (mayFail : Bool) (t u : ℕ) (status : String) (s : Disk T) : Prop :=
  mayFail = true ∨ s (.failed u) ≠ none ∨ status ≠ "PREPARED" ∧ s (.backup t) = none

/-- **The directory of before is put back**, from wherever it is. -/
theorem wp_restoreBackup (h : Returning active first truth earlier t j s g)
    (hok : ∀ s', Returning active first truth earlier t j s' g →
      s' .active = some (.dir (g.current first)) → s' (.backup t) = none → Q (.ok ()) (s', g))
    (hbad : ∀ e s', Hindered mayFail t u j.status s →
      Returning active first truth earlier t j s' g → Q (.error e) (s', g)) :
    wp (handler journals mayFail) (.keeping (Sound active first truth earlier)) ()
      (restoreBackup t j.status u) Q (s, g) := by
  have hfail : mayFail = true → ∀ e, Q (.error e) (s, g) := fun hmay e => hbad e s (.inl hmay) h
  refine wp_bind.mpr (wp_present Unnoticed.present h.sound ?_ hfail)
  rw [onOk_ok]
  have hdirectory : ∀ {α : Type} {p : Program T α} {Q' : Except Raised α → Disk T × Seen T → Prop},
      s (.backup t) = some (.dir (g.current first)) →
      wp (handler journals mayFail) (.keeping (Sound active first truth earlier)) () p Q' (s, g) →
      (mayFail = true → ∀ e, Q' (.error e) (s, g)) →
      wp (handler journals mayFail) (.keeping (Sound active first truth earlier)) () (do
        let _ ← directory (.backup t) "UPDATE_TRANSACTION_BACKUP_UNSAFE"
        p) Q' (s, g) := by
    intro α p Q' hbackup hp hfail'
    refine wp_bind.mpr (wp_directory (Unnoticed.look (p := .backup t) (by simp)) h.sound
      (fun d _ => hp) ?_)
    rintro (hmay | hnot) e
    · exact hfail' hmay e
    · exact absurd hbackup (hnot _)
  cases h.pending.placed with
  | home backup hactive =>
    rw [backup, if_neg (by simp)]
    split
    · rename_i hstatus
      exact hbad _ s (.inr (.inr ⟨hstatus, backup⟩)) h
    · exact hok s h hactive backup
  | away backup hactive =>
    rw [backup, if_pos Option.isSome_some]
    refine hdirectory backup (wp_bind.mpr (wp_present Unnoticed.present h.sound ?_ hfail)) hfail
    rw [onOk_ok, hactive, if_neg (by simp)]
    refine wp_move Unnoticed.move h.sound (fun _ => ?_) fun hwhy e => hbad e s (.inl ?_) h
    · have hsame : ∀ p, p ≠ .backup t → p ≠ .active →
          Store.moved (F := releases T) s (.backup t) .active p = s p :=
        fun p hp hp' => Store.moved_of_ne (F := releases T) s hp hp'
      have hne : Place.backup t ≠ .active := by simp
      have hback := (Store.moved_dst (F := releases T) s (.backup t) .active).trans backup
      have hgone := Store.moved_src (F := releases T) s hne
      have h' := h.replace (fun p _ hp hp' => hsame p (hp' t) hp) (.home hgone hback)
      exact ⟨h'.sound, hok _ h' hback hgone⟩
    · refine hwhy.resolve_right (not_not.mpr ⟨by rw [backup]; rfl, ?_⟩)
      rw [hactive]
      simp
  | replaced d backup hactive origin =>
    rw [backup, if_pos Option.isSome_some]
    refine hdirectory backup (wp_bind.mpr (wp_present Unnoticed.present h.sound ?_ hfail)) hfail
    rw [onOk_ok, hactive, if_pos Option.isSome_some]
    refine wp_bind.mpr (wp_swapIn h backup hactive origin (fun s₁ h₁ hgone hback => ?_)
      fun e s' hwhy h' => hbad e s' (hwhy.imp_right .inl) h')
    refine wp_rmtreeAt (fun _ => Unnoticed.spoil) (fun _ => Unnoticed.clear)
      (fun s' hs' => (h₁.other rfl hs').sound) fun s' hs' => ⟨?_, ?_⟩
    · exact hok s' (h₁.other rfl hs') ((hs' .active (by simp)).trans hback)
        ((hs' (.backup t) (by simp)).trans hgone)
    · exact fun hmay e => hbad e s' (.inl hmay) (h₁.other rfl hs')

end RestoreBackup

section RollBack

variable {Q : Except Raised Recovery → Disk T × Seen T → Prop} {u : ℕ}

/-- Between two transactions. -/
def Settled (first : Dir T) (s : Disk T × Seen T) : Prop :=
  s.1 .journal = none ∧ s.1 .active = some (.dir (s.2.current first))

/-- A recovery removes the journal with the directory of before in its place. -/
theorem wp_closeJournal (h : Returning active first truth earlier t j s g)
    (hactive : s .active = some (.dir (g.current first)))
    (hok : ∀ s', Sound active first truth earlier (s', g) → Settled first (s', g) →
      Q (.ok .rolledBack) (s', g))
    (hbad : mayFail = true → ∀ e s', Sound active first truth earlier (s', g) →
      Q (.error e) (s', g)) :
    wp (handler journals mayFail) (.keeping (Sound active first truth earlier)) () (do
      remove .journal false
      validateActive
      pure .rolledBack) Q (s, g) := by
  refine wp_bind.mpr (wp_op h.sound ?_ fun hmay e => hbad hmay e s h.sound)
  rintro r s' (⟨-, rfl, rfl⟩ | ⟨-, hnone, -⟩)
  · have hnote : journals.note (.remove .journal false) s (.ok ()) g = g := by
      change g.closing s = g
      unfold Seen.closing
      rw [h.pending.journal, hactive]
      exact if_pos h.read
    rw [hnote]
    have hset : ∀ p, p ≠ .journal → Store.set (F := releases T) s .journal none p = s p :=
      fun p hp => Store.set_of_ne (F := releases T) s none hp
    have hjournal := Store.set_self (F := releases T) s .journal none
    generalize Store.set (F := releases T) s .journal none = s' at hset hjournal ⊢
    have hactive' : s' .active = some (.dir (g.current first)) :=
      (hset .active nofun).trans hactive
    have hsound : Sound active first truth earlier (s', g) :=
      .closed hjournal hactive' (h.told.congr (hset .audit nofun)) h.own
    refine ⟨hsound, wp_bind.mpr (wp_bind.mpr (wp_directory (Unnoticed.look (p := .active) nofun)
      hsound ?_ ?_))⟩
    · exact fun d _ => hok s' hsound ⟨hjournal, hactive'⟩
    · rintro (hmay | hnot) e
      · exact hbad hmay e s' hsound
      · exact absurd hactive' (hnot _)
  · exact absurd (hnone.symm.trans h.pending.journal) nofun

/-- What a recovery does once it has read the journal. -/
theorem wp_rollBack (h : Returning active first truth earlier t j s g)
    (hok : ∀ s', Sound active first truth earlier (s', g) → Settled first (s', g) →
      Q (.ok .rolledBack) (s', g))
    (hbad : Hindered mayFail t u j.status s → ∀ e s', Sound active first truth earlier (s', g) →
      Q (.error e) (s', g)) :
    wp (handler journals mayFail) (.keeping (Sound active first truth earlier)) ()
      (rollBack t t j.status u) Q (s, g) := by
  have hfail : mayFail = true → ∀ e s', Returning active first truth earlier t j s' g →
      Q (.error e) (s', g) := fun hmay e s' h' => hbad (.inl hmay) e s' h'.sound
  refine wp_bind.mpr (wp_restoreBackup h (fun s₁ h₁ hactive _ => ?_)
    fun e s' hwhy h' => hbad hwhy e s' h'.sound)
  have hremove : ∀ s', Returning active first truth earlier t j s' g →
      s' .active = some (.dir (g.current first)) →
      wp (handler journals mayFail) (.keeping (Sound active first truth earlier)) () (do
        remove (.rollbackReceipt t) true
        remove .journal false
        validateActive
        pure .rolledBack) Q (s', g) := by
    intro s' h' hactive'
    have hset : ∀ p, p ≠ .rollbackReceipt t →
        Store.set (F := releases T) s' (.rollbackReceipt t) none p = s' p :=
      fun p hp => Store.set_of_ne (F := releases T) s' none hp
    have hremoved := h'.other (p := .rollbackReceipt t) rfl hset
    refine wp_bind.mpr (wp_removeOk Unnoticed.removeOk h'.sound ⟨hremoved.sound, ?_⟩
      fun hmay e => hfail hmay e s' h')
    exact wp_closeJournal hremoved ((hset .active (by simp)).trans hactive') hok
      fun hmay e s'' h'' => hbad (.inl hmay) e s'' h''
  refine wp_bind.mpr (wp_bind.mpr (wp_present Unnoticed.present h₁.sound ?_
    fun hmay e => hfail hmay e s₁ h₁))
  rw [onOk_ok]
  split
  · refine wp_rmtreeAt (fun _ => Unnoticed.spoil) (fun _ => Unnoticed.clear)
      (fun s' hs' => (h₁.other rfl hs').sound) fun s' hs' => ⟨?_, ?_⟩
    · exact hremove s' (h₁.other rfl hs') ((hs' .active (by simp)).trans hactive)
    · exact fun hmay e => hfail hmay e s' (h₁.other rfl hs')
  · exact hremove s₁ h₁ hactive

end RollBack

section Recover

variable {Q : Except Raised Recovery → Disk T × Seen T → Prop} {u : ℕ}

/-- A token an update has just made up: no directory beside the active one is named after it, and
the active one is not the candidate of an update of that name. -/
def Fresh (t : ℕ) (s : Disk T) : Prop :=
  s (.backup t) = none ∧ ∀ d, s .active = some (.dir d) → d.origin ≠ some t

/-- **The condition on the steps of a history.**  Tokens are new; and, if `truth` asks for it, no
recovery reads the journal of an update whose acceptance is in the chain. -/
def Guard (truth : Prop) :
    (o : (sig (releases T)).Op) → Disk T × Seen T → (sig (releases T)).Ans o → Prop
  | .look .journal, s, .ok _ => truth → ∀ j t, s.1 .journal = some (.journal j) →
      j.backup = some t → t ∉ accepted s.1
  | .create (.extraction t) _, s, .ok _ => Fresh t s.1
  | _, _, _ => True

/-- Whose journal a recovery finds. -/
theorem Sound.opened (h : Sound active first truth earlier (s, g))
    (hj : s .journal = some (.journal j)) :
    ∃ t status, j = opened active t status ∧ Pending active t (g.current first) j s := by
  cases h with
  | closed journal _ _ _ => exact nomatch journal.symm.trans hj
  | pending t j' h _ _ =>
    obtain rfl : j' = j := Node.journal.inj (Option.some.inj (h.journal.symm.trans hj))
    obtain ⟨status, hwritten⟩ := h.written
    exact ⟨t, status, hwritten, h⟩

/-- A journal that has been read belongs to an update nobody has been told about. -/
theorem Sound.returning (h : Sound active first truth earlier (s, g)) {status : String}
    (hj : s .journal = some (.journal (ReleaseUpdate.opened active t status)))
    (hguard : truth → ∀ j t, s .journal = some (.journal j) → j.backup = some t →
      t ∉ accepted s) :
    Returning active first truth earlier t (ReleaseUpdate.opened active t status) s
      { g with read := true } := by
  cases h with
  | closed journal _ _ _ => exact nomatch journal.symm.trans hj
  | pending t' j h told own =>
    obtain rfl : j = ReleaseUpdate.opened active t status :=
      Node.journal.inj (Option.some.inj (h.journal.symm.trans hj))
    obtain ⟨status', hwritten⟩ := h.written
    obtain rfl : t = t' := Option.some.inj (congrArg Journal.backup hwritten)
    refine ⟨h, ?_, own, rfl⟩
    rcases told with told | told
    · exact told
    · intro htruth
      have hnot := hguard htruth _ t hj rfl
      rw [told htruth] at hnot
      exact absurd (List.mem_append_right _ (List.mem_singleton_self t)) hnot

theorem journalOf_opened (active : String) (t : ℕ) (status : String) :
    journalOf (some (.journal (opened active t status)) : Option (Node T)) =
      pure (opened active t status) := by
  simp [journalOf, opened]

/-- The journal of an update is there: it is read, and then acted upon. -/
theorem wp_recover_opened {inv : Disk T × Seen T → Prop} {status : String}
    {cond : (o : (sig (releases T)).Op) → Disk T × Seen T → (sig (releases T)).Ans o → Prop}
    (hjournal : s .journal = some (.journal (opened active t status))) (hs : inv (s, g))
    (hread : cond (.look .journal) (s, g) (.ok (s .journal)) →
      inv (s, { g with read := true }) ∧ wp ((handler journals mayFail).meeting cond)
        (.keeping inv) () (rollBack t t status u) Q (s, { g with read := true }))
    (hfail : mayFail = true → ∀ e, Q (.error e) (s, g)) :
    wp ((handler journals mayFail).meeting cond) (.keeping inv) ()
      (recoverIncompleteUpdate active u) Q (s, g) := by
  have hactive : ¬(opened active t status).activeName ≠ active := not_not.mpr rfl
  refine wp_bind.mpr (wp_meeting (wp_present Unnoticed.present hs ?_ hfail))
  rw [onOk_ok, hjournal, if_pos Option.isSome_some]
  refine wp_bind.mpr (wp_bind.mpr (wp_look_meeting hs (fun hcond => ?_) hfail))
  obtain ⟨hinv, hrest⟩ := hread hcond
  refine ⟨hinv, ?_⟩
  rw [onOk_ok, hjournal, journalOf_opened, wp_pure, onOk_ok, if_neg hactive]
  exact hrest

/-- **A recovery** brings a history to where the right directory is active and there is no
journal, or it leaves everything in order for the next one. -/
theorem wp_recover
    {cond : (o : (sig (releases T)).Op) → Disk T × Seen T → (sig (releases T)).Ans o → Prop}
    (hcond : ∀ s n, cond (.look .journal) s (.ok n) → truth → ∀ j t,
      s.1 .journal = some (.journal j) → j.backup = some t → t ∉ accepted s.1)
    {s : Disk T × Seen T} (h : Sound active first truth earlier s)
    (hok : ∀ res s', Sound active first truth earlier s' → Settled first s' →
      s'.2.finals = s.2.finals → (s.1 .journal = none → res = .noTransaction) → Q (.ok res) s')
    (hbad : mayFail = true ∨ s.1 (.failed u) ≠ none ∨ ¬BackupThere s.1 →
      ∀ e s', Sound active first truth earlier s' → Q (.error e) s') :
    wp ((handler journals mayFail).meeting cond)
      (.keeping (Sound active first truth earlier)) () (recoverIncompleteUpdate active u) Q s := by
  obtain ⟨s, g⟩ := s
  have hfail : mayFail = true → ∀ e, Q (.error e) (s, g) := fun hmay e => hbad (.inl hmay) e _ h
  cases h with
  | closed journal hactive told own =>
    have h : Sound active first truth earlier (s, g) := .closed journal hactive told own
    have hnone : s .journal = none := journal
    refine wp_bind.mpr (wp_meeting (wp_present Unnoticed.present h ?_ hfail))
    rw [onOk_ok, hnone, if_neg (by simp)]
    exact hok _ _ h ⟨journal, hactive⟩ rfl fun _ => rfl
  | pending t j hpending told own =>
    have h : Sound active first truth earlier (s, g) := .pending t j hpending told own
    have hjournal : s .journal = some (.journal j) := hpending.journal
    obtain ⟨status, rfl⟩ := hpending.written
    refine wp_recover_opened hjournal h (fun hguard => ?_) hfail
    have hreturning := h.returning hjournal (hcond _ _ hguard)
    refine ⟨hreturning.sound, wp_meeting (wp_rollBack hreturning (fun s' h' hsettled => ?_)
      fun hwhy e s' h' => ?_)⟩
    · exact hok _ _ h' hsettled rfl fun hnone => nomatch hjournal.symm.trans hnone
    · refine hbad (hwhy.imp_right (Or.imp_right ?_)) e _ h'
      rintro ⟨hstatus, hbackup⟩ hthere
      have hsome : (s (.backup t)).isSome = true := hthere _ t hjournal rfl hstatus
      rw [hbackup] at hsome
      exact nomatch hsome

end Recover

end Recovery

end Kripto.Deploy.ReleaseUpdate
