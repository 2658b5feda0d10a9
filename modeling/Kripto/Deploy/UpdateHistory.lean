/-
# Histories of updates

`apply_update` keeps the invariant of `UpdateRecovery`, wherever it fails or is cut short: before
its journal nothing has happened to the active directory, with it the old directory can be put
back, and when it removes the journal itself, its candidate is active and its acceptance is the
last one in the chain.
-/
import Kripto.Deploy.UpdateRecovery

namespace Kripto.Deploy.ReleaseUpdate

open Effect Effect.Files

variable {T : Type}

section Update

variable {active : String} {first : Dir T} {truth : Prop} {earlier : List ℕ} {mayFail : Bool}
  {t : ℕ} {s : Disk T} {g : Seen T}

/-! ## 1. Before the journal -/

/-- Nothing has happened yet that a recovery would have to undo. -/
structure Begun (first : Dir T) (truth : Prop) (earlier : List ℕ) (t : ℕ) (s : Disk T)
    (g : Seen T) : Prop where
  settled : Settled first (s, g)
  told : Told truth (earlier ++ g.tokens) s
  own : ∀ f ∈ g.finals, f.2.origin = some f.1
  backup : s (.backup t) = none
  old : (g.current first).origin ≠ some t

theorem Begun.sound (h : Begun first truth earlier t s g) :
    Sound active first truth earlier (s, g) :=
  .closed h.settled.1 h.settled.2 h.told h.own

theorem Begun.congr (h : Begun first truth earlier t s g) {s' : Disk T}
    (hs : ∀ p, quiet p = false → s' p = s p) : Begun first truth earlier t s' g where
  settled := ⟨(hs .journal rfl).trans h.settled.1, (hs .active rfl).trans h.settled.2⟩
  told := h.told.congr (hs .audit rfl)
  own := h.own
  backup := (hs (.backup t) rfl).trans h.backup
  old := h.old

theorem Begun.other (h : Begun first truth earlier t s g) {p : Place} {s' : Disk T}
    (hp : quiet p = true) (hs : ∀ q, q ≠ p → s' q = s q) : Begun first truth earlier t s' g := by
  refine h.congr fun q hq => hs q ?_
  rintro rfl
  exact nomatch hp.symm.trans hq

/-- The candidate of the update. -/
def Staged (t : ℕ) (s : Disk T) : Prop :=
  ∃ d, s (.candidate t) = some (.dir d) ∧ d.origin = some t

/-- The extraction directory is nobody's business. -/
theorem wp_rmtreeExtraction {inv : Disk T × Seen T → Prop}
    {Q : Except Raised Unit → Disk T × Seen T → Prop}
    (hinv : ∀ s', (∀ p, inExtraction t p = false → s' p = s p) → inv (s', g))
    (hQ : ∀ r s', (∀ p, inExtraction t p = false → s' p = s p) → Q r (s', g)) :
    wp (handler journals mayFail) (.keeping inv) () (rmtree (F := releases T) (inExtraction t)) Q
      (s, g) :=
  wp_rmtree Unnoticed.spoil Unnoticed.clear hinv fun s' hs' =>
    ⟨hQ _ s' hs', fun _ _ => hQ _ s' hs'⟩

theorem quiet_of_inExtraction {p : Place} (h : quiet p = false) : inExtraction t p = false := by
  cases p <;> first | rfl | exact nomatch h

theorem wp_stageCandidate (h : Begun first truth earlier t s g)
    {Q : Except Raised Unit → Disk T × Seen T → Prop}
    (hok : ∀ s', Begun first truth earlier t s' g → Staged t s' → Q (.ok ()) (s', g))
    (hbad : ∀ e s', Begun first truth earlier t s' g → Q (.error e) (s', g)) :
    wp (handler journals mayFail) (.keeping (Sound active first truth earlier)) ()
      (stageCandidate t) Q (s, g) := by
  refine wp_bind.mpr (wp_ignored Unnoticed.spoil h.sound ?_ fun _ e => hbad e s h)
  rintro r s₁ ⟨rfl, hs₁⟩
  have h₁ : Begun first truth earlier t s₁ g :=
    h.other (p := .extracted t) rfl fun q hq => hs₁ q (decide_eq_false hq)
  refine ⟨h₁.sound, wp_bind.mpr (wp_ask Unnoticed.ask h₁.sound (fun project => ?_)
    fun _ e => hbad e s₁ h₁)⟩
  rw [onOk_ok]
  rcases project with _ | tree
  · exact hbad _ s₁ h₁
  have hput : ∀ p, p ≠ .extracted t → Store.set (F := releases T) s₁ (.extracted t)
      (some (.dir ⟨some t, tree⟩)) p = s₁ p :=
    fun p hp => Store.set_of_ne (F := releases T) s₁ _ hp
  have hnew := Store.set_self (F := releases T) s₁ (.extracted t) (some (.dir ⟨some t, tree⟩))
  have h₂ := h₁.other (p := .extracted t) rfl hput
  refine wp_bind.mpr (wp_put (Unnoticed.put (p := .extracted t) nofun) h₁.sound ⟨h₂.sound, ?_⟩
    fun _ e => hbad e s₁ h₁)
  generalize Store.set (F := releases T) s₁ (.extracted t) _ = s₂ at hnew h₂ ⊢
  refine wp_bind.mpr (wp_move Unnoticed.move h₂.sound (fun _ => ?_) fun _ e => hbad e s₂ h₂)
  have hmoved : ∀ p, p ≠ .extracted t → p ≠ .candidate t →
      Store.moved (F := releases T) s₂ (.extracted t) (.candidate t) p = s₂ p :=
    fun p hp hp' => Store.moved_of_ne (F := releases T) s₂ hp hp'
  have hcandidate := (Store.moved_dst (F := releases T) s₂ (.extracted t) (.candidate t)).trans hnew
  generalize Store.moved (F := releases T) s₂ (.extracted t) (.candidate t) = s₃
    at hmoved hcandidate ⊢
  have h₃ : Begun first truth earlier t s₃ g := by
    refine h₂.congr fun p hp => hmoved p ?_ ?_
    · rintro rfl
      exact nomatch hp
    · rintro rfl
      exact nomatch hp
  refine ⟨h₃.sound, wp_rmtreeExtraction (fun s' hs' => ?_) fun r s' hs' => ?_⟩
  · exact (h₃.congr fun p hp => hs' p (quiet_of_inExtraction hp)).sound
  · have h' := h₃.congr fun p hp => hs' p (quiet_of_inExtraction hp)
    cases r with
    | ok u => exact hok s' h' ⟨_, (hs' (.candidate t) rfl).trans hcandidate, rfl⟩
    | error e => exact hbad e s' h'

/-! ## 2. Checks -/

section Reading

variable {inv : Disk T × Seen T → Prop} {p : Place}

theorem spares_look (hp : p ≠ .journal) :
    (journals (T := T)).Spares (fun _ => True) (.look p) := ⟨trivial, Unnoticed.look hp⟩

theorem spares_ask (q : Ask T) : journals.Spares (fun _ => True) (.ask q) :=
  ⟨trivial, Unnoticed.ask⟩

theorem wp_treeOf (hp : p ≠ .journal) (hs : inv (s, g))
    {Q : Except Raised T → Disk T × Seen T → Prop} (hQ : ∀ r, Q r (s, g)) :
    wp (handler journals mayFail) (.keeping inv) () (treeOf p) Q (s, g) :=
  wp_reading (within_treeOf (spares_look hp)) hs hQ

theorem wp_verifyIdentity (hp : p ≠ .journal) (hs : inv (s, g)) {msg : String}
    {Q : Except Raised Unit → Disk T × Seen T → Prop} (hQ : ∀ r, Q r (s, g)) :
    wp (handler journals mayFail) (.keeping inv) () (verifyIdentity p msg) Q (s, g) :=
  wp_reading (within_verifyIdentity (spares_look hp) spares_ask) hs hQ

theorem wp_checkCandidate (hs : inv (s, g)) {Q : Except Raised (T × Option String) →
    Disk T × Seen T → Prop} (hQ : ∀ r, Q r (s, g)) :
    wp (handler journals mayFail) (.keeping inv) () (checkCandidate t) Q (s, g) := by
  refine wp_reading ?_ hs hQ
  have hactive := spares_look (T := T) (p := .active) nofun
  have hcandidate := spares_look (T := T) (p := .candidate t) nofun
  refine Prog.Within.bind (within_verifyIdentity hcandidate spares_ask) fun _ => ?_
  refine Prog.Within.bind (within_treeOf hactive) fun pre => ?_
  refine Prog.Within.bind (within_treeOf hcandidate) fun candidate => ?_
  refine Prog.Within.bind (Prog.within_perform.mpr (spares_ask _)) fun migration => ?_
  split
  · exact Prog.within_raise _
  · exact Prog.within_pure _

theorem wp_runPostCutoverAcceptance (hs : inv (s, g)) {Q : Except Raised Bool →
    Disk T × Seen T → Prop} (hQ : ∀ r, Q r (s, g)) :
    wp (handler journals mayFail) (.keeping inv) () runPostCutoverAcceptance Q (s, g) :=
  wp_reading (within_runPostCutoverAcceptance (spares_look (p := .active) nofun) spares_ask) hs hQ

end Reading

/-! ## 3. The cutover -/

/-- The journal is there, no recovery has read it, and nobody has been told yet. -/
structure Running (active : String) (first : Dir T) (truth : Prop) (earlier : List ℕ) (t : ℕ)
    (s : Disk T) (g : Seen T) : Prop where
  pending : ∃ j, Pending active t (g.current first) j s
  told : Told truth (earlier ++ g.tokens) s
  own : ∀ f ∈ g.finals, f.2.origin = some f.1
  unread : g.read = false

theorem Running.sound (h : Running active first truth earlier t s g) :
    Sound active first truth earlier (s, g) :=
  .pending t _ h.pending.choose_spec (.inl h.told) h.own

/-- A new status is written, and the directories are where they were. -/
theorem wp_writeJournal {status : String} (hs : Sound active first truth earlier (s, g))
    (hplaced : Placed t (g.current first) s) (hold : (g.current first).origin ≠ some t)
    (htold : Told truth (earlier ++ g.tokens) s) (hown : ∀ f ∈ g.finals, f.2.origin = some f.1)
    {Q : Except Raised Unit → Disk T × Seen T → Prop}
    (hok : ∀ s', (∀ p, p ≠ .journal → s' p = s p) →
      Running active first truth earlier t s' { g with read := false } →
      Q (.ok ()) (s', { g with read := false }))
    (hbad : ∀ e, Q (.error e) (s, g)) :
    wp (handler journals mayFail) (.keeping (Sound active first truth earlier)) ()
      (writeJournal active t status) Q (s, g) := by
  refine wp_op hs ?_ fun _ e => hbad e
  rintro r s' ⟨rfl, rfl⟩
  have hset : ∀ p, p ≠ .journal → Store.set (F := releases T) s .journal
      (some (.journal (opened active t status))) p = s p :=
    fun p hp => Store.set_of_ne (F := releases T) s _ hp
  have hrunning : Running active first truth earlier t (Store.set (F := releases T) s .journal
      (some (.journal (opened active t status)))) { g with read := false } := by
    refine ⟨⟨opened active t status, ?_, ⟨status, rfl⟩, hold, ?_⟩, ?_, hown, rfl⟩
    · exact Store.set_self (F := releases T) s _ _
    · exact hplaced.congr (hset .active nofun) (hset (.backup t) nofun)
    · exact htold.congr (hset .audit nofun)
  exact ⟨hrunning.sound, hok _ hset hrunning⟩

/-- The directories of a running update are renamed. -/
theorem Running.replace (h : Running active first truth earlier t s g) {s' : Disk T}
    (hjournal : s' .journal = s .journal) (haudit : s' .audit = s .audit)
    (hplaced : Placed t (g.current first) s') : Running active first truth earlier t s' g where
  pending := by
    obtain ⟨j, hj⟩ := h.pending
    exact ⟨j, hjournal.trans hj.journal, hj.written, hj.old, hplaced⟩
  told := h.told.congr haudit
  own := h.own
  unread := h.unread

/-- The candidate is active. -/
def CutOver (t : ℕ) (s : Disk T) : Prop := ∃ d, s .active = some (.dir d) ∧ d.origin = some t

/-- **The cutover** can be rolled back from each of its steps. -/
theorem wp_cutOver (h : Begun first truth earlier t s g) (hstaged : Staged t s)
    {Q : Except Raised Unit → Disk T × Seen T → Prop}
    (hok : ∀ s' g', g'.finals = g.finals → Running active first truth earlier t s' g' →
      CutOver t s' → Q (.ok ()) (s', g'))
    (hbad : ∀ e s', Sound active first truth earlier s' → Q (.error e) s') :
    wp (handler journals mayFail) (.keeping (Sound active first truth earlier)) ()
      (cutOver active t) Q (s, g) := by
  have hhome : Placed t (g.current first) s := .home h.backup h.settled.2
  refine wp_bind.mpr (wp_writeJournal h.sound hhome h.old h.told h.own (fun s₁ hs₁ h₁ => ?_)
    fun e => hbad e _ h.sound)
  rw [onOk_ok]
  have hactive₁ : s₁ .active = some (.dir (g.current first)) :=
    (hs₁ .active nofun).trans h.settled.2
  -- the active directory becomes the backup
  refine wp_bind.mpr (wp_move Unnoticed.move h₁.sound (fun _ => ?_) fun _ e => hbad e _ h₁.sound)
  have hmoved : ∀ p, p ≠ .active → p ≠ .backup t →
      Store.moved (F := releases T) s₁ .active (.backup t) p = s₁ p :=
    fun p hp hp' => Store.moved_of_ne (F := releases T) s₁ hp hp'
  have hbackup := (Store.moved_dst (F := releases T) s₁ .active (.backup t)).trans hactive₁
  have hne : Place.active ≠ .backup t := nofun
  have hgone := Store.moved_src (F := releases T) s₁ hne
  generalize Store.moved (F := releases T) s₁ .active (.backup t) = s₂ at hmoved hbackup hgone ⊢
  have haway : Placed t (g.current first) s₂ := .away hbackup hgone
  have h₂ := h₁.replace (hmoved .journal nofun nofun) (hmoved .audit nofun nofun) haway
  refine ⟨h₂.sound, wp_bind.mpr (wp_writeJournal h₂.sound haway h.old h₂.told h.own
    (fun s₃ hs₃ h₃ => ?_) fun e => hbad e _ h₂.sound)⟩
  rw [onOk_ok]
  obtain ⟨d, hd, horigin⟩ := hstaged
  have hcandidate : s₃ (.candidate t) = some (.dir d) :=
    (hs₃ (.candidate t) nofun).trans ((hmoved (.candidate t) nofun nofun).trans
      ((hs₁ (.candidate t) nofun).trans hd))
  have hkept : s₃ (.backup t) = some (.dir (g.current first)) :=
    (hs₃ (.backup t) nofun).trans hbackup
  -- the candidate becomes the active directory
  refine wp_bind.mpr (wp_move Unnoticed.move h₃.sound (fun _ => ?_) fun _ e => hbad e _ h₃.sound)
  have hmoved' : ∀ p, p ≠ .candidate t → p ≠ .active →
      Store.moved (F := releases T) s₃ (.candidate t) .active p = s₃ p :=
    fun p hp hp' => Store.moved_of_ne (F := releases T) s₃ hp hp'
  have hactive := (Store.moved_dst (F := releases T) s₃ (.candidate t) .active).trans hcandidate
  generalize Store.moved (F := releases T) s₃ (.candidate t) .active = s₄ at hmoved' hactive ⊢
  have hreplaced : Placed t (g.current first) s₄ :=
    .replaced d ((hmoved' (.backup t) nofun nofun).trans hkept) hactive horigin
  have h₄ := h₃.replace (hmoved' .journal nofun nofun) (hmoved' .audit nofun nofun) hreplaced
  refine ⟨h₄.sound, wp_writeJournal h₄.sound hreplaced h.old h₄.told h.own (fun s₅ hs₅ h₅ => ?_)
    fun e => hbad e _ h₄.sound⟩
  exact hok s₅ _ rfl h₅ ⟨d, (hs₅ .active nofun).trans hactive, horigin⟩

/-! ## 4. Acceptance and commit -/

/-- Nothing but quiet places has changed. -/
theorem Running.congr (h : Running active first truth earlier t s g) {s' : Disk T}
    (hs : ∀ p, quiet p = false → s' p = s p) : Running active first truth earlier t s' g := by
  obtain ⟨j, hj⟩ := h.pending
  exact h.replace (hs .journal rfl) (hs .audit rfl)
    (hj.placed.congr (hs .active rfl) (hs (.backup t) rfl))

theorem CutOver.congr (h : CutOver t s) {s' : Disk T} (hs : s' .active = s .active) :
    CutOver t s' := by
  obtain ⟨d, hd, horigin⟩ := h
  exact ⟨d, hs.trans hd, horigin⟩

/-- A receipt is written. -/
theorem wp_putReceipt (h : Running active first truth earlier t s g) (hcut : CutOver t s)
    {p : Place} (hp : quiet p = true) {n : Node T}
    {Q : Except Raised Unit → Disk T × Seen T → Prop}
    (hok : ∀ s', Running active first truth earlier t s' g → CutOver t s' → Q (.ok ()) (s', g))
    (hbad : ∀ e s', Sound active first truth earlier s' → Q (.error e) s') :
    wp (handler journals mayFail) (.keeping (Sound active first truth earlier)) () (put p n) Q
      (s, g) := by
  have hne : p ≠ .journal := by
    rintro rfl
    exact nomatch hp
  have hset : ∀ q, quiet q = false → Store.set (F := releases T) s p (some n) q = s q := by
    refine fun q hq => Store.set_of_ne (F := releases T) s _ ?_
    rintro rfl
    exact nomatch hp.symm.trans hq
  have h' := h.congr hset
  exact wp_put (Unnoticed.put hne) h.sound
    ⟨h'.sound, hok _ h' (hcut.congr (hset .active rfl))⟩ fun _ e => hbad e _ h.sound

theorem wp_writeReceipts (h : Running active first truth earlier t s g) (hcut : CutOver t s)
    {pre : T} {migration : Option String}
    {Q : Except Raised (Acceptance T × RollbackReceipt T) → Disk T × Seen T → Prop}
    (hok : ∀ a s', Running active first truth earlier t s' g → CutOver t s' → Q (.ok a) (s', g))
    (hbad : ∀ e s', Sound active first truth earlier s' → Q (.error e) s') :
    wp (handler journals mayFail) (.keeping (Sound active first truth earlier)) ()
      (writeReceipts t pre migration) Q (s, g) := by
  refine wp_bind.mpr (wp_treeOf (p := .active) nofun h.sound fun r => ?_)
  rcases r with e | post
  · exact hbad e _ h.sound
  refine wp_bind.mpr (wp_putReceipt h hcut rfl (fun s₁ h₁ hcut₁ => ?_) hbad)
  exact wp_bind.mpr (wp_putReceipt h₁ hcut₁ rfl (fun s₂ h₂ hcut₂ => hok _ s₂ h₂ hcut₂) hbad)

/-- While the acceptance is written to the chain, the update is told about or it is not. -/
theorem Running.stage (h : Running active first truth earlier t s g) {a a' : ChainFile (Event T)}
    (ha : audit.chain s = some a) {e : Event T} (he : e.update = some t) (hstage : a.Stage e a') :
    Sound active first truth earlier
      (Store.set (F := releases T) s .audit (some (.audit a')), g) := by
  obtain ⟨j, hj⟩ := h.pending
  have hset : ∀ p, p ≠ .audit → Store.set (F := releases T) s .audit (some (.audit a')) p = s p :=
    fun p hp => Store.set_of_ne (F := releases T) s _ hp
  have hchain : audit.chain (Store.set (F := releases T) s .audit (some (.audit a'))) = some a' :=
    audit.chain_set a'
  refine .pending t j (hj.congr fun p _ hp => hset p hp) ?_ h.own
  have haccepted : accepted s = a.events.filterMap Event.update := by rw [accepted, ha]; rfl
  have haccepted' : accepted (Store.set (F := releases T) s .audit (some (.audit a'))) =
      a'.events.filterMap Event.update := by rw [accepted, hchain]; rfl
  by_cases htruth : truth
  case neg => exact .inl fun h => absurd h htruth
  obtain ⟨hbefore, hclean⟩ := h.told htruth
  rw [haccepted] at hbefore
  -- behind a line without a newline nothing is added
  have hlast : a.last = none ∨ a.last = some none := by
    rcases hl : a.last with _ | (_ | e)
    · exact .inl rfl
    · exact .inr rfl
    · exact absurd hl (hclean a ha e)
  have hquiet : a'.events = a.events → (∀ e, a'.last ≠ some (some e)) →
      Told truth (earlier ++ g.tokens)
        (Store.set (F := releases T) s .audit (some (.audit a'))) := by
    intro hevents hl _
    refine ⟨by rw [haccepted', hevents, hbefore], fun b hb e => ?_⟩
    obtain rfl : a' = b := Option.some.inj (hchain.symm.trans hb)
    exact hl e
  have htold : a'.events = a.events ++ [e] →
      accepted (Store.set (F := releases T) s .audit (some (.audit a'))) =
        earlier ++ g.tokens ++ [t] := by
    intro hevents
    rw [haccepted', hevents, List.filterMap_append, hbefore]
    simp [he]
  have htorn : a.events = a.lines.filterMap id := by
    rcases hlast with hlast | hlast
    · exact ChainFile.events_of_last hlast
    · simp [ChainFile.events, ChainFile.allLines, hlast]
  cases hstage with
  | opened => exact .inl (hquiet rfl (hclean a ha))
  | torn => exact .inl (hquiet (a.events_torn.trans htorn.symm) (by simp [ChainFile.torn]))
  | unended =>
    rcases hlast with hlast | hlast
    · exact .inr fun _ => htold (ChainFile.events_unended hlast e)
    · refine .inl (hquiet ?_ ?_)
      · simp [ChainFile.events, ChainFile.allLines, ChainFile.unended, ChainFile.joined, hlast]
      · simp [ChainFile.unended, ChainFile.joined, hlast]
  | ended =>
    rcases hlast with hlast | hlast
    · exact .inr fun _ => htold (ChainFile.events_ended hlast e)
    · refine .inl (hquiet ?_ (by simp [ChainFile.ended]))
      simp [ChainFile.events, ChainFile.allLines, ChainFile.ended, ChainFile.joined, hlast]

/-- The acceptance is the last one in the chain, and only the journal is left to be removed. -/
structure Announced (active : String) (first : Dir T) (truth : Prop) (earlier : List ℕ) (t : ℕ)
    (s : Disk T) (g : Seen T) : Prop where
  sound : Sound active first truth earlier (s, g)
  journal : ∃ status, s .journal = some (.journal (opened active t status))
  cut : CutOver t s
  told : Told truth (earlier ++ g.tokens ++ [t]) s
  own : ∀ f ∈ g.finals, f.2.origin = some f.1
  unread : g.read = false

/-- **The commit**: the update removes its journal itself. -/
theorem wp_commit (h : Announced active first truth earlier t s g)
    {Q : Except Raised Unit → Disk T × Seen T → Prop}
    (hQ : ∀ r s', Sound active first truth earlier s' → Q r s') :
    wp (handler journals mayFail) (.keeping (Sound active first truth earlier)) ()
      (remove .journal false) Q (s, g) := by
  obtain ⟨status, hjournal⟩ := h.journal
  obtain ⟨d, hd, horigin⟩ := h.cut
  refine wp_op h.sound ?_ fun _ e => hQ _ _ h.sound
  rintro r s' (⟨-, rfl, rfl⟩ | ⟨-, hnone, -⟩)
  · have hnote : journals.note (.remove .journal false) s (.ok ()) g =
        { g with finals := g.finals ++ [(t, d)] } := by
      change g.closing s = _
      unfold Seen.closing
      rw [hjournal, hd]
      exact if_neg (by simp [h.unread])
    have hset : ∀ p, p ≠ .journal → Store.set (F := releases T) s .journal none p = s p :=
      fun p hp => Store.set_of_ne (F := releases T) s none hp
    have hsound : Sound active first truth earlier (Store.set (F := releases T) s .journal none,
        { g with finals := g.finals ++ [(t, d)] }) := by
      refine .closed (Store.set_self (F := releases T) s .journal none) ?_ ?_ ?_
      · exact (hset .active nofun).trans (hd.trans (by simp [Seen.current]))
      · rw [Seen.tokens, List.map_append, ← List.append_assoc]
        exact h.told.congr (hset .audit nofun)
      · intro f hf
        rcases List.mem_append.mp hf with hf | hf
        · exact h.own f hf
        · obtain rfl : f = (t, d) := List.mem_singleton.mp hf
          exact horigin
    rw [hnote]
    exact ⟨hsound, hQ _ _ hsound⟩
  · exact nomatch hnone.symm.trans hjournal

variable [DecidableEq T]

/-- **Acceptance** ends with the event in the chain. -/
theorem wp_accept (h : Running active first truth earlier t s g) (hcut : CutOver t s) {pre : T}
    {migration : Option String} {Q : Except Raised Unit → Disk T × Seen T → Prop}
    (hok : ∀ s', Announced active first truth earlier t s' g → Q (.ok ()) (s', g))
    (hbad : ∀ e s', Sound active first truth earlier s' → Q (.error e) s') :
    wp (handler journals mayFail) (.keeping (Sound active first truth earlier)) ()
      (accept t pre migration) Q (s, g) := by
  refine wp_bind.mpr (wp_verifyIdentity (p := .active) (by simp) h.sound fun r => ?_)
  rcases r with e | u
  · exact hbad e _ h.sound
  refine wp_bind.mpr (wp_runPostCutoverAcceptance h.sound fun r => ?_)
  rcases r with e | ok
  · exact hbad e _ h.sound
  rw [onOk_ok]
  split
  case isFalse => exact hbad _ _ h.sound
  refine wp_bind.mpr (wp_writeReceipts h hcut (fun receipts s₁ h₁ hcut₁ => ?_) hbad)
  refine wp_bind.mpr (wp_treeOf (p := .active) (by simp) h₁.sound fun r => ?_)
  rcases r with e | tree
  · exact hbad e _ h₁.sound
  refine audit.wp_appendEvent (Unnoticed.look (p := .audit) (by simp))
    (fun _ => Unnoticed.put (p := .audit) (by simp)) _ h₁.sound
    (fun a a' ha hstage => h₁.stage ha rfl hstage) (fun a ha hlast => ?_)
    (fun e _ => hbad e _ h₁.sound) fun e a a' _ ha hstage => hbad e _ (h₁.stage ha rfl hstage)
  refine hok _ ⟨h₁.stage ha rfl .ended, ?_, ?_, ?_, h₁.own, h₁.unread⟩
  · obtain ⟨j, hj⟩ := h₁.pending
    obtain ⟨status, rfl⟩ := hj.written
    exact ⟨status, hj.journal⟩
  · exact hcut₁
  · intro htruth
    have hchain := audit.chain_set (s := s₁)
      (a.ended (.updateAccepted t receipts.1 t receipts.2 tree))
    obtain ⟨hbefore, -⟩ := h₁.told htruth
    rw [accepted, ha] at hbefore
    refine ⟨?_, fun b hb e => ?_⟩
    · rw [accepted, hchain]
      simp only [Option.elim_some, ChainFile.events_ended hlast, List.filterMap_append] at hbefore ⊢
      rw [hbefore]
      rfl
    · obtain rfl := Option.some.inj (hchain.symm.trans hb)
      simp [ChainFile.ended]

/-- What an update does inside its `try`. -/
theorem wp_update (h : Begun first truth earlier t s g) :
    wp (handler journals mayFail) (.keeping (Sound active first truth earlier)) ()
      (update active t) (fun _ => Sound active first truth earlier) (s, g) := by
  refine wp_bind.mpr (wp_stageCandidate h (fun s₁ h₁ hstaged => ?_) fun _ _ h' => h'.sound)
  refine wp_bind.mpr (wp_checkCandidate h₁.sound fun r => ?_)
  rcases r with e | checked
  · exact h₁.sound
  refine wp_bind.mpr (wp_cutOver h₁ hstaged (fun s₂ g₂ _ h₂ hcut => ?_) fun _ _ h' => h')
  refine wp_bind.mpr (wp_accept h₂ hcut (fun s₃ h₃ => ?_) fun _ _ h' => h')
  exact wp_commit h₃ fun _ _ h' => h'

/-! ## 5. The whole update -/

omit [DecidableEq T] in
theorem Sound.quiet {p : Place} (h : Sound active first truth earlier (s, g)) (hp : quiet p = true)
    {s' : Disk T} (hs : ∀ q, q ≠ p → s' q = s q) : Sound active first truth earlier (s', g) := by
  refine h.congr fun q hq => hs q ?_
  rintro rfl
  exact nomatch hp.symm.trans hq

omit [DecidableEq T] in
/-- `except BaseException`: the recovery at once. -/
theorem wp_recoverAndRaise {u : ℕ} {s : Disk T × Seen T} (h : Sound active first truth earlier s)
    (e : Raised) :
    wp ((handler journals mayFail).meeting (Guard truth))
      (.keeping (Sound active first truth earlier)) () (recoverAndRaise active u e)
      (fun _ => Sound active first truth earlier) s := by
  refine wp_bind.mpr (wp_meeting (wp_present Unnoticed.present h ?_ fun _ _ => h))
  rw [onOk_ok]
  split
  · exact wp_bind.mpr (wp_recover (fun _ _ hguard => hguard) h (fun _ _ h' _ _ _ => h')
      fun _ _ _ h' => h')
  · exact h

omit [DecidableEq T] in
/-- `finally`. -/
theorem wp_discard {s : Disk T × Seen T} (h : Sound active first truth earlier s) :
    wp (handler journals mayFail) (.keeping (Sound active first truth earlier)) () (discard t)
      (fun _ => Sound active first truth earlier) s := by
  obtain ⟨s, g⟩ := s
  have hrest : ∀ s', Sound active first truth earlier (s', g) →
      wp (handler journals mayFail) (.keeping (Sound active first truth earlier)) () (do
        let staged ← present (.candidate t)
        if staged then do
          let pending ← present .journal
          if pending then pure () else rmtreeAt (.candidate t))
        (fun _ => Sound active first truth earlier) (s', g) := by
    intro s' h'
    refine wp_bind.mpr (wp_present Unnoticed.present h' ?_ fun _ _ => h')
    rw [onOk_ok]
    split
    case isFalse => exact h'
    refine wp_bind.mpr (wp_present Unnoticed.present h' ?_ fun _ _ => h')
    rw [onOk_ok]
    split
    · exact h'
    · exact wp_rmtreeAt (fun _ => Unnoticed.spoil) (fun _ => Unnoticed.clear)
        (fun s'' hs'' => h'.quiet rfl hs'')
        fun s'' hs'' => ⟨h'.quiet rfl hs'', fun _ _ => h'.quiet rfl hs''⟩
  refine wp_bind.mpr (wp_rmtreeExtraction (fun s' hs' => ?_) fun r s' hs' => ?_)
  · exact h.congr fun p hp => hs' p (quiet_of_inExtraction hp)
  · have h' := h.congr fun p hp => hs' p (quiet_of_inExtraction hp)
    cases r with
    | ok u => exact hrest s' h'
    | error e => exact h'

/-- **An update** keeps the invariant, however it ends. -/
theorem wp_applyUpdate {n : Names} {s : Disk T × Seen T}
    (h : Sound active first truth earlier s) :
    wp ((handler journals mayFail).meeting (Guard truth))
      (.keeping (Sound active first truth earlier)) () (applyUpdate active n)
      (fun _ => Sound active first truth earlier) s := by
  obtain ⟨s, g⟩ := s
  refine wp_bind.mpr (wp_meeting (wp_bind.mpr (wp_directory (Unnoticed.look (p := .active) (by simp)) h
    (fun _ _ => ?_) fun _ _ => h)))
  refine wp_bind.mpr (wp_meeting (wp_ask Unnoticed.ask h (fun clear => ?_) fun _ _ => h))
  rw [onOk_ok]
  split
  case isFalse => exact h
  refine wp_bind.mpr (wp_recover (fun _ _ hguard => hguard) h
    (fun _ s₁ h₁ hsettled _ _ => ?_) fun _ _ _ h' => h')
  obtain ⟨s₁, g₁⟩ := s₁
  rw [onOk_ok]
  refine wp_bind.mpr (wp_op_meeting h₁ ?_ fun _ _ _ => h₁)
  rintro r s₂ (⟨-, rfl, rfl⟩ | ⟨-, rfl, rfl⟩) hguard
  case inr => exact ⟨h₁, h₁⟩
  obtain ⟨hbackup, hold⟩ : Fresh n.token s₁ := hguard
  have hset : ∀ p, p ≠ .extraction n.token →
      Store.set (F := releases T) s₁ (.extraction n.token) (some .workdir) p = s₁ p :=
    fun p hp => Store.set_of_ne (F := releases T) s₁ _ hp
  have hbegun : Begun first truth earlier n.token
      (Store.set (F := releases T) s₁ (.extraction n.token) (some .workdir)) g₁ := by
    refine Begun.other (p := .extraction n.token) ?_ rfl hset
    cases h₁ with
    | closed _ active told own => exact ⟨hsettled, told, own, hbackup, hold _ active⟩
    | pending t j h _ _ => cases hsettled.1.symm.trans h.journal
  exact ⟨hbegun.sound, wp_bind_pure (wp_finally_kept
    (wp_tryCatch_kept (wp_meeting (wp_update hbegun)) fun e _ h' => wp_recoverAndRaise h' e)
    fun _ h' => wp_meeting (wp_discard h'))⟩

end Update

end Kripto.Deploy.ReleaseUpdate
