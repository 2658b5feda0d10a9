/-
# News that is given again and again

`research/news_safety.py`: a row is accepted if its source is trusted and reliable enough, if it is
neither from the future nor too old, if it is the next version of its story, and if no row with the
same words has been accepted by the same call.  The versions are kept from call to call; the words
are not, and a text that cannot be encoded ends the call with an error.

* `accepted_consecutive`: over any calls, the versions of a story are noted one after the other;
  what a call has noted before it raises is returned by no call;
* `polls_settle`: a call may pass over a version because the one before it stands behind it, or
  because its words stand in another story.  Given the same rows again and again, the layer comes
  to note all versions up to the first that is not offered, whatever their order and their words.

`classify` and the gate behind it are left out.
-/
import Kripto.Effect.Sorting
import Kripto.Python.Json
import Mathlib.Data.List.Intervals
import Mathlib.Data.Prod.Lex

namespace Kripto.Research.NewsSafety

open Effect Python

/-! ## 1. `research/news_safety.py` -/

/-- `text.lower()` -/
class LowerRuntime where
  lower : Text → Text

inductive Exc
  | unicodeEncodeError
  deriving DecidableEq

/-- A `datetime` is its microseconds. -/
structure NewsRecord where
  sourceId : Text
  sourceUrl : Text
  storyId : Text
  publicationTime : ℤ
  ingestionTime : ℤ
  text : Text
  sourceReliability : ℚ
  version : ℕ := 1
  identified : sourceId ≠ [] ∧ sourceUrl ≠ [] ∧ storyId ≠ []
  bounded : 0 ≤ sourceReliability ∧ sourceReliability ≤ 1
  positive : 1 ≤ version
  ordered : publicationTime ≤ ingestionTime

/-- `max_age` is in microseconds, and `versions` is `_versions.get(story_id, 0)`. -/
structure NewsSafetyLayer where
  trustedSources : List Text
  maxAge : ℤ := 24 * 60 * 60 * 1000000
  minReliability : ℚ := 3 / 5
  versions : Text → ℕ := fun _ => 0

/-- The arguments of `ingest`. -/
structure Batch where
  rows : List NewsRecord
  asOf : ℤ

/-- `(r.publication_time, r.story_id, r.version)` -/
def sortKey (r : NewsRecord) : ℤ ×ₗ List ℕ ×ₗ ℕ :=
  toLex (r.publicationTime, toLex (r.storyId.map CodePoint.ord, r.version))

/-- `text.split()` -/
def words (text : Text) : List Text :=
  (text.splitOnP fun c => c.char?.any Text.isSpace).filter (· ≠ [])

/-- What `continue` does not pass over, before the versions are looked at. -/
def NewsSafetyLayer.admits (self : NewsSafetyLayer) (asOf : ℤ) (row : NewsRecord) : Bool :=
  row.sourceId ∈ self.trustedSources ∧ row.publicationTime ≤ asOf ∧ row.ingestionTime ≤ asOf ∧
    asOf - row.publicationTime ≤ self.maxAge ∧ self.minReliability ≤ row.sourceReliability

/-- The variables of the loop. -/
structure Scan where
  versions : Text → ℕ
  seenContent : List String := []
  accepted : List NewsRecord := []

section Runtime

variable [LowerRuntime] [Hashlib]

/-- `" ".join(row.text.lower().split())` -/
def normalised (text : Text) : Text :=
  [.scalar ' '].intercalate (words (LowerRuntime.lower text))

def digest (text : Text) : Option String := (normalised text).encode.map Hashlib.sha256

/-- The row is accepted. -/
def Scan.note (scan : Scan) (row : NewsRecord) (digest : String) : Scan where
  versions := Function.update scan.versions row.storyId row.version
  seenContent := digest :: scan.seenContent
  accepted := scan.accepted ++ [row]

def scanRow (admits : NewsRecord → Bool) (scan : Scan) (row : NewsRecord) : Except Exc Scan :=
  if !admits row then .ok scan
  else if row.version ≠ scan.versions row.storyId + 1 then .ok scan
  else
    match digest row.text with
    | none => .error .unicodeEncodeError
    | some digest =>
      if digest ∈ scan.seenContent then .ok scan else .ok (scan.note row digest)

def scanRows (admits : NewsRecord → Bool) (scan : Scan) :
    List NewsRecord → Except Exc Unit × Scan
  | [] => (.ok (), scan)
  | row :: rows =>
    match scanRow admits scan row with
    | .ok scan => scanRows admits scan rows
    | .error e => (.error e, scan)

/-- The loop of a call. -/
def NewsSafetyLayer.scan (self : NewsSafetyLayer) (call : Batch) : Except Exc Unit × Scan :=
  scanRows (self.admits call.asOf) { versions := self.versions }
    (call.rows.insertionSort (ByKey sortKey))

def NewsSafetyLayer.ingest (self : NewsSafetyLayer) (call : Batch) :
    Except Exc (List NewsRecord) × NewsSafetyLayer :=
  let (result, scan) := self.scan call
  (result.map fun _ => scan.accepted, { self with versions := scan.versions })

/-! ## 2. Calls -/

/-- The rows whose versions a call notes, whether it returns them or raises. -/
def NewsSafetyLayer.noted (self : NewsSafetyLayer) (call : Batch) : List NewsRecord :=
  (self.scan call).2.accepted

/-- The layer after these calls. -/
def after (self : NewsSafetyLayer) (calls : List Batch) : NewsSafetyLayer :=
  calls.foldl (fun self call => (self.ingest call).2) self

/-- What is noted in these calls. -/
def allNoted (self : NewsSafetyLayer) : List Batch → List NewsRecord
  | [] => []
  | call :: calls => self.noted call ++ allNoted (self.ingest call).2 calls

/-- What these calls return. -/
def returned (self : NewsSafetyLayer) : List Batch → List NewsRecord
  | [] => []
  | call :: calls => (self.ingest call).1.toOption.getD [] ++ returned (self.ingest call).2 calls

/-- The versions of a story. -/
def versionsOf (story : Text) (rows : List NewsRecord) : List ℕ :=
  (rows.filter (·.storyId = story)).map NewsRecord.version

/-- A call offers this version of a story. -/
def Offered (self : NewsSafetyLayer) (call : Batch) (story : Text) (v : ℕ) : Prop :=
  ∃ row ∈ call.rows, self.admits call.asOf row = true ∧ row.storyId = story ∧ row.version = v

/-! ## 3. The loop -/

variable {admits : NewsRecord → Bool} {scan scan' : Scan} {row : NewsRecord}
  {rows : List NewsRecord} {self : NewsSafetyLayer} {call : Batch} {calls : List Batch}
  {story : Text} {v : ℕ}

/-- **What a turn of the loop can do** if it does not raise. -/
theorem scanRow_cases (h : scanRow admits scan row = .ok scan') :
    scan' = scan ∨ admits row = true ∧ row.version = scan.versions row.storyId + 1 ∧
      ∃ digest, scan' = scan.note row digest := by
  unfold scanRow at h
  split_ifs at h with hadmits hversion
  · exact .inl (Except.ok.inj h).symm
  · exact .inl (Except.ok.inj h).symm
  · rw [Bool.not_eq_true', Bool.not_eq_false] at hadmits
    cases hdigest : digest row.text with
    | none => simp [hdigest] at h
    | some digest =>
      simp only [hdigest] at h
      split_ifs at h
      · exact .inl (Except.ok.inj h).symm
      · exact .inr ⟨hadmits, not_not.mp hversion, digest, (Except.ok.inj h).symm⟩

/-- What one part of the loop notes: rows that are admitted, and of each story the next ones. -/
structure Notes (admits : NewsRecord → Bool) (rows : List NewsRecord) (scan : Scan)
    (new : List NewsRecord) (scan' : Scan) : Prop where
  accepted : scan'.accepted = scan.accepted ++ new
  mem : ∀ row ∈ new, row ∈ rows ∧ admits row = true
  le : ∀ story, scan.versions story ≤ scan'.versions story
  versions : ∀ story, versionsOf story new =
    List.Ico (scan.versions story + 1) (scan'.versions story + 1)

omit [LowerRuntime] [Hashlib] in
theorem versionsOf_append (story : Text) (rows rows' : List NewsRecord) :
    versionsOf story (rows ++ rows') = versionsOf story rows ++ versionsOf story rows' := by
  simp [versionsOf]

omit [LowerRuntime] [Hashlib] in
theorem mem_versionsOf_iff :
    v ∈ versionsOf story rows ↔ ∃ row ∈ rows, row.storyId = story ∧ row.version = v := by
  simp [versionsOf, and_assoc]

omit [LowerRuntime] [Hashlib] in
theorem notes_nil (rows : List NewsRecord) : Notes admits rows scan [] scan :=
  ⟨(List.append_nil _).symm, nofun, fun _ => le_rfl, fun _ => List.Ico.self_empty.symm⟩

omit [LowerRuntime] [Hashlib] in
theorem notes_note {digest : String} (hadmits : admits row = true)
    (hversion : row.version = scan.versions row.storyId + 1) :
    Notes admits [row] scan [row] (scan.note row digest) := by
  refine ⟨rfl, ?_, fun story => ?_, fun story => ?_⟩
  · intro row' hrow'
    obtain rfl := List.mem_singleton.mp hrow'
    exact ⟨hrow', hadmits⟩
  · by_cases hstory : story = row.storyId
    · subst hstory
      simp [Scan.note, hversion]
    · simp [Scan.note, hstory]
  · by_cases hstory : story = row.storyId
    · subst hstory
      simp [versionsOf, Scan.note, hversion]
    · simp [versionsOf, Scan.note, hstory, Ne.symm hstory]

omit [LowerRuntime] [Hashlib] in
theorem Notes.trans {rows' new new' : List NewsRecord} {scan'' : Scan}
    (h : Notes admits rows scan new scan') (h' : Notes admits rows' scan' new' scan'') :
    Notes admits (rows ++ rows') scan (new ++ new') scan'' := by
  refine ⟨?_, fun row hrow => ?_, fun story => (h.le story).trans (h'.le story), fun story => ?_⟩
  · rw [h'.accepted, h.accepted, List.append_assoc]
  · rcases List.mem_append.mp hrow with hrow | hrow
    · exact ⟨List.mem_append_left _ (h.mem row hrow).1, (h.mem row hrow).2⟩
    · exact ⟨List.mem_append_right _ (h'.mem row hrow).1, (h'.mem row hrow).2⟩
  · rw [versionsOf_append, h.versions, h'.versions]
    exact List.Ico.append_consecutive (Nat.succ_le_succ (h.le story))
      (Nat.succ_le_succ (h'.le story))

/-- **What the loop notes**, whether it raises or not. -/
theorem scanRows_notes (admits : NewsRecord → Bool) (scan : Scan) (rows : List NewsRecord) :
    ∃ new, Notes admits rows scan new (scanRows admits scan rows).2 := by
  induction rows generalizing scan with
  | nil => exact ⟨[], notes_nil _⟩
  | cons row rows ih =>
    rw [scanRows]
    cases hrow : scanRow admits scan row with
    | error e => exact ⟨[], notes_nil _⟩
    | ok next =>
      obtain ⟨new, hnew⟩ := ih next
      rcases scanRow_cases hrow with rfl | ⟨hadmits, hversion, digest, rfl⟩
      · exact ⟨new, (notes_nil [row]).trans hnew⟩
      · exact ⟨row :: new, (notes_note hadmits hversion).trans hnew⟩

/-- All that is admitted can be encoded. -/
def Encodable (admits : NewsRecord → Bool) (rows : List NewsRecord) : Prop :=
  ∀ row ∈ rows, admits row = true → (normalised row.text).Encodable

theorem digest_of_encodable {text : Text} (h : (normalised text).Encodable) :
    ∃ d, digest text = some d :=
  ⟨_, by rw [digest, h.encode, Option.map_some]⟩

theorem scanRow_returns (scan : Scan)
    (h : admits row = true → (normalised row.text).Encodable) :
    ∃ scan', scanRow admits scan row = .ok scan' := by
  unfold scanRow
  split_ifs with hadmits hversion
  · exact ⟨_, rfl⟩
  · exact ⟨_, rfl⟩
  · rw [Bool.not_eq_true', Bool.not_eq_false] at hadmits
    obtain ⟨d, hd⟩ := digest_of_encodable (h hadmits)
    simp only [hd]
    split_ifs
    · exact ⟨_, rfl⟩
    · exact ⟨_, rfl⟩

theorem scanRows_returns (h : Encodable admits rows) : (scanRows admits scan rows).1 = .ok () := by
  induction rows generalizing scan with
  | nil => rfl
  | cons row rows ih =>
    obtain ⟨next, hnext⟩ := scanRow_returns scan (h row List.mem_cons_self)
    rw [scanRows, hnext]
    exact ih fun row' hrow' => h row' (List.mem_cons_of_mem _ hrow')

/-- The first row that is next in its story is noted: no words have been seen before it. -/
theorem scanRow_expected (hseen : scan.seenContent = []) (hadmits : admits row = true)
    (hversion : row.version = scan.versions row.storyId + 1)
    (hencodable : (normalised row.text).Encodable) :
    ∃ digest, scanRow admits scan row = .ok (scan.note row digest) := by
  obtain ⟨d, hd⟩ := digest_of_encodable hencodable
  exact ⟨d, by simp [scanRow, hadmits, hversion, hd, hseen]⟩

theorem scanRows_expected (h : Encodable admits rows) (hseen : scan.seenContent = [])
    (hrow : ∃ row ∈ rows, admits row = true ∧ row.version = scan.versions row.storyId + 1) :
    (scanRows admits scan rows).2.accepted ≠ scan.accepted := by
  induction rows with
  | nil =>
    obtain ⟨row, hmem, -⟩ := hrow
    cases hmem
  | cons row rows ih =>
    obtain ⟨next, hnext⟩ := scanRow_returns scan (h row List.mem_cons_self)
    rw [scanRows, hnext]
    rcases scanRow_cases hnext with rfl | ⟨-, -, digest, rfl⟩
    · -- the row has been passed over, so it is another one that is expected
      refine ih (fun row' hrow' => h row' (List.mem_cons_of_mem _ hrow')) ?_
      obtain ⟨row', hmem, hadmits, hversion⟩ := hrow
      rcases List.mem_cons.mp hmem with rfl | hmem
      · obtain ⟨d, hd⟩ := scanRow_expected hseen hadmits hversion (h _ List.mem_cons_self hadmits)
        have haccepted := congrArg Scan.accepted (Except.ok.inj (hd.symm.trans hnext))
        simp [Scan.note] at haccepted
      · exact ⟨row', hmem, hadmits, hversion⟩
    · obtain ⟨new, hnew⟩ := scanRows_notes admits (scan.note row digest) rows
      rw [hnew.accepted]
      simp [Scan.note]

/-! ## 4. One call -/

theorem ingest_eq_ok (h : (self.scan call).1 = .ok ()) :
    (self.ingest call).1 = .ok (self.noted call) := by
  simp [NewsSafetyLayer.ingest, NewsSafetyLayer.noted, h, Except.map]

/-- What a call returns is what it notes, if it returns. -/
theorem ingest_cases (self : NewsSafetyLayer) (call : Batch) :
    (self.ingest call).1 = .ok (self.noted call) ∨ ∃ e, (self.ingest call).1 = .error e := by
  cases hscan : (self.scan call).1 with
  | ok => exact .inl (ingest_eq_ok hscan)
  | error e => exact .inr ⟨e, by simp [NewsSafetyLayer.ingest, hscan, Except.map]⟩

theorem noted_notes (self : NewsSafetyLayer) (call : Batch) :
    Notes (self.admits call.asOf) (call.rows.insertionSort (ByKey sortKey))
      { versions := self.versions } (self.noted call) (self.scan call).2 := by
  obtain ⟨new, hnew⟩ := scanRows_notes (self.admits call.asOf) { versions := self.versions }
    (call.rows.insertionSort (ByKey sortKey))
  obtain rfl : self.noted call = new := hnew.accepted
  exact hnew

theorem versions_le (story : Text) : self.versions story ≤ (self.ingest call).2.versions story :=
  (noted_notes self call).le story

theorem versionsOf_noted (self : NewsSafetyLayer) (call : Batch) (story : Text) :
    versionsOf story (self.noted call) =
      List.Ico (self.versions story + 1) ((self.ingest call).2.versions story + 1) :=
  (noted_notes self call).versions story

theorem offered_of_mem_noted (h : row ∈ self.noted call) :
    Offered self call row.storyId row.version := by
  obtain ⟨hmem, hadmits⟩ := (noted_notes self call).mem row h
  rw [List.mem_insertionSort] at hmem
  exact ⟨row, hmem, hadmits, rfl, rfl⟩

/-- The versions that a call has come to are offered by it. -/
theorem offered_of_lt (h : self.versions story < v) (h' : v ≤ (self.ingest call).2.versions story) :
    Offered self call story v := by
  have hmem : v ∈ versionsOf story (self.noted call) := by
    rw [versionsOf_noted, List.Ico.mem]
    omega
  obtain ⟨row, hrow, rfl, rfl⟩ := mem_versionsOf_iff.mp hmem
  exact offered_of_mem_noted hrow

/-- **A call notes something** just when it offers the next version of some story. -/
theorem noted_eq_nil_iff (hencodable : Encodable (self.admits call.asOf) call.rows) :
    self.noted call = [] ↔ ∀ story, ¬ Offered self call story (self.versions story + 1) := by
  have hsorted : Encodable (self.admits call.asOf) (call.rows.insertionSort (ByKey sortKey)) :=
    fun row hrow => hencodable row ((List.mem_insertionSort _).mp hrow)
  constructor
  · rintro hnil _ ⟨row, hmem, hadmits, rfl, hversion⟩
    refine scanRows_expected hsorted rfl ⟨row, ?_, hadmits, hversion⟩ hnil
    exact (List.mem_insertionSort _).mpr hmem
  · intro hnone
    by_contra hsome
    obtain ⟨row, hrow⟩ := List.exists_mem_of_ne_nil _ hsome
    have hversion : row.version ∈ versionsOf row.storyId (self.noted call) :=
      mem_versionsOf_iff.mpr ⟨row, hrow, rfl, rfl⟩
    rw [versionsOf_noted, List.Ico.mem] at hversion
    exact hnone row.storyId (offered_of_lt (Nat.lt_succ_self _) (by omega))

/-! ## 5. All calls -/

theorem versions_le_after (self : NewsSafetyLayer) (calls : List Batch) (story : Text) :
    self.versions story ≤ (after self calls).versions story := by
  induction calls generalizing self with
  | nil => exact le_rfl
  | cons call calls ih => exact (versions_le story).trans (ih _)

theorem versionsOf_allNoted (self : NewsSafetyLayer) (calls : List Batch) (story : Text) :
    versionsOf story (allNoted self calls) =
      List.Ico (self.versions story + 1) ((after self calls).versions story + 1) := by
  induction calls generalizing self with
  | nil => exact List.Ico.self_empty.symm
  | cons call calls ih =>
    rw [allNoted, versionsOf_append, versionsOf_noted, ih]
    exact List.Ico.append_consecutive (Nat.succ_le_succ (versions_le story))
      (Nat.succ_le_succ (versions_le_after _ calls story))

theorem returned_sublist (self : NewsSafetyLayer) (calls : List Batch) :
    (returned self calls).Sublist (allNoted self calls) := by
  induction calls generalizing self with
  | nil => exact List.Sublist.slnil
  | cons call calls ih =>
    refine List.Sublist.append ?_ (ih _)
    rcases ingest_cases self call with hok | ⟨e, herror⟩
    · rw [hok]
      exact List.Sublist.refl _
    · rw [herror]
      exact List.nil_sublist _

theorem returned_append (self : NewsSafetyLayer) (calls calls' : List Batch) :
    returned self (calls ++ calls') =
      returned self calls ++ returned (after self calls) calls' := by
  induction calls generalizing self with
  | nil => rfl
  | cons call calls ih => rw [List.cons_append, returned, ih, returned, List.append_assoc]; rfl

/-- The versions of a story that these calls return. -/
theorem mem_returned (h : row ∈ returned self calls) :
    self.versions row.storyId < row.version ∧
      row.version ≤ (after self calls).versions row.storyId := by
  have hversion : row.version ∈ versionsOf row.storyId (allNoted self calls) :=
    mem_versionsOf_iff.mpr ⟨row, (returned_sublist self calls).subset h, rfl, rfl⟩
  rw [versionsOf_allNoted, List.Ico.mem] at hversion
  omega

/-- **The versions of a story** are noted one after the other.  They are returned, all of them if
no call raises; those that are noted by a call that raises are returned by no call. -/
theorem accepted_consecutive (self : NewsSafetyLayer) (calls : List Batch) :
    (∀ story, versionsOf story (allNoted self calls) =
      List.Ico (self.versions story + 1) ((after self calls).versions story + 1)) ∧
    (returned self calls).Sublist (allNoted self calls) ∧
    ∀ before call rest, calls = before ++ call :: rest →
      (((after self before).ingest call).1 = .ok ((after self before).noted call) ∨
        ∀ row ∈ (after self before).noted call, ∀ row' ∈ returned self calls,
          row'.storyId = row.storyId → row'.version ≠ row.version) := by
  refine ⟨versionsOf_allNoted self calls, returned_sublist self calls, ?_⟩
  rintro before call rest rfl
  rcases ingest_cases (after self before) call with hok | ⟨e, herror⟩
  · exact .inl hok
  refine .inr fun row hrow row' hrow' hstory => ?_
  have hversion : row.version ∈ versionsOf row.storyId ((after self before).noted call) :=
    mem_versionsOf_iff.mpr ⟨row, hrow, rfl, rfl⟩
  rw [versionsOf_noted, List.Ico.mem] at hversion
  -- it is returned by a call before this one or by one after it
  rw [returned_append, returned, herror, List.mem_append] at hrow'
  rcases hrow' with hrow' | hrow'
  · have hbefore := (mem_returned hrow').2
    rw [hstory] at hbefore
    omega
  · have hafter := (mem_returned hrow').1
    rw [hstory] at hafter
    omega

/-! ## 6. The same rows again and again -/

/-- The rows that are still to come. -/
def pending (self : NewsSafetyLayer) (call : Batch) : List NewsRecord :=
  call.rows.filter fun row => self.admits call.asOf row ∧ self.versions row.storyId < row.version

theorem pending_ingest (self : NewsSafetyLayer) (call : Batch) :
    pending (self.ingest call).2 call = (pending self call).filter
      fun row => (self.ingest call).2.versions row.storyId < row.version := by
  rw [pending, pending, List.filter_filter]
  refine List.filter_congr fun row _ => ?_
  have hle : self.versions row.storyId ≤ (self.ingest call).2.versions row.storyId :=
    versions_le row.storyId
  have hadmits : (self.ingest call).2.admits call.asOf row = self.admits call.asOf row := rfl
  rw [hadmits, ← Bool.decide_and, decide_eq_decide]
  constructor
  · rintro ⟨ha, hlt⟩
    exact ⟨hlt, ha, hle.trans_lt hlt⟩
  · rintro ⟨hlt, ha, -⟩
    exact ⟨ha, hlt⟩

/-- A call that notes something has fewer rows still to come. -/
theorem length_pending_lt (h : self.noted call ≠ []) :
    (pending (self.ingest call).2 call).length < (pending self call).length := by
  obtain ⟨row, hrow⟩ := List.exists_mem_of_ne_nil _ h
  obtain ⟨row', hmem, hadmits, hstory, hversion⟩ := offered_of_mem_noted hrow
  have hnoted : row.version ∈ versionsOf row.storyId (self.noted call) :=
    mem_versionsOf_iff.mpr ⟨row, hrow, rfl, rfl⟩
  rw [versionsOf_noted, List.Ico.mem, ← hstory, ← hversion] at hnoted
  rw [pending_ingest, List.length_filter_lt_length_iff_exists]
  refine ⟨row', ?_, ?_⟩
  · simp only [pending, List.mem_filter, hmem, hadmits, true_and, decide_eq_true_eq]
    omega
  · simp only [decide_eq_true_eq]
    omega

/-- The layer after `n` calls with the same rows. -/
def polled (self : NewsSafetyLayer) (call : Batch) (n : ℕ) : NewsSafetyLayer :=
  after self (List.replicate n call)

theorem polled_succ (self : NewsSafetyLayer) (call : Batch) (n : ℕ) :
    polled self call (n + 1) = polled (self.ingest call).2 call n := rfl

theorem admits_polled (self : NewsSafetyLayer) (call : Batch) (n : ℕ) :
    (polled self call n).admits = self.admits := by
  induction n generalizing self with
  | zero => rfl
  | succ n ih => exact ih (self.ingest call).2

/-- Some call notes nothing, and there are no more before it than rows. -/
theorem exists_noted_eq_nil (self : NewsSafetyLayer) (call : Batch) :
    ∃ n ≤ (pending self call).length, (polled self call n).noted call = [] := by
  induction hlength : (pending self call).length using Nat.strong_induction_on
    generalizing self with
  | _ length ih =>
    subst hlength
    by_cases hnil : self.noted call = []
    · exact ⟨0, Nat.zero_le _, hnil⟩
    · have hlt := length_pending_lt hnil
      obtain ⟨n, hn, hnoted⟩ := ih _ hlt (self.ingest call).2 rfl
      exact ⟨n + 1, by omega, hnoted⟩

/-- The versions that the calls have come to are offered. -/
theorem offered_of_polled {n : ℕ} (h : self.versions story < v)
    (h' : v ≤ (polled self call n).versions story) : Offered self call story v := by
  induction n generalizing self with
  | zero => exact absurd h' (Nat.not_le.mpr h)
  | succ n ih =>
    rw [polled_succ] at h'
    rcases Nat.lt_or_ge ((self.ingest call).2.versions story) v with hlt | hge
    · have hlater : Offered (self.ingest call).2 call story v := ih hlt h'
      exact hlater
    · exact offered_of_lt h hge

/-- **The same rows, given again and again**: there comes a call that returns nothing, and then the
layer has noted all versions of each story up to the first that is not offered. -/
theorem polls_settle (self : NewsSafetyLayer) (call : Batch)
    (hencodable : Encodable (self.admits call.asOf) call.rows) :
    ∃ n ≤ call.rows.length, ((polled self call n).ingest call).1 = .ok [] ∧
      ∀ story v, self.versions story < v →
        (v ≤ (polled self call n).versions story ↔
          ∀ w, self.versions story < w → w ≤ v → Offered self call story w) := by
  obtain ⟨n, hn, hnil⟩ := exists_noted_eq_nil self call
  have hadmits := admits_polled self call n
  have hencodable' : Encodable ((polled self call n).admits call.asOf) call.rows :=
    hadmits ▸ hencodable
  have hscan : ((polled self call n).scan call).1 = .ok () :=
    scanRows_returns fun row hrow => hencodable' row ((List.mem_insertionSort _).mp hrow)
  refine ⟨n, hn.trans (List.length_filter_le _ _), ?_, fun story v hv => ⟨?_, ?_⟩⟩
  · rw [ingest_eq_ok hscan, hnil]
  · exact fun hle w hw hwv => offered_of_polled hw (hwv.trans hle)
  · intro hoffered
    by_contra hlt
    -- the next version is offered, and nothing has been noted
    have hle := versions_le_after self (List.replicate n call) story
    obtain ⟨row, hmem, hrow, hstory, hversion⟩ :=
      hoffered ((polled self call n).versions story + 1) (Nat.lt_succ_of_le hle) (by omega)
    exact (noted_eq_nil_iff hencodable').mp hnil story
      ⟨row, hmem, hadmits ▸ hrow, hstory, hversion⟩

end Runtime

section Example

/-- Lower-case letters are left as they are. -/
@[reducible] def verbatim : LowerRuntime := ⟨id⟩

attribute [local instance] verbatim beginnings

/-- A row that was published at `time` and came in at 5. -/
def dated (time : ℤ) (h : time ≤ 5) (version : ℕ) (hversion : 1 ≤ version) (text : String) :
    NewsRecord where
  sourceId := Text.of "official"
  sourceUrl := Text.of "official/listing"
  storyId := Text.of "listing"
  publicationTime := time
  ingestionTime := 5
  text := Text.of text
  sourceReliability := 1
  version := version
  identified := by decide
  bounded := by decide
  positive := hversion
  ordered := h

/-- The second version is dated before the first. -/
def correction : Batch where
  rows := [dated 3 (by decide) 1 (by decide) "btc is listed",
    dated 2 (by decide) 2 (by decide) "btc is not listed"]
  asOf := 10

def official : NewsSafetyLayer := { trustedSources := [Text.of "official"] }

theorem polls_settle_correction : ∃ n ≤ correction.rows.length,
    ((polled official correction n).ingest correction).1 = .ok [] ∧
      ∀ story v, 0 < v → (v ≤ (polled official correction n).versions story ↔
        ∀ w, 0 < w → w ≤ v → Offered official correction story w) := by
  refine polls_settle official correction fun row hrow _ => ?_
  simp only [correction, List.mem_cons, List.not_mem_nil, or_false] at hrow
  rcases hrow with rfl | rfl
  · have hwords : normalised (Text.of "btc is listed") = Text.of "btc is listed" := by decide
    exact hwords ▸ Text.encodable_of _
  · have hwords : normalised (Text.of "btc is not listed") = Text.of "btc is not listed" := by
      decide
    exact hwords ▸ Text.encodable_of _

/-- It takes two calls. -/
example : (returned official [correction, correction]).map NewsRecord.version = [1, 2] ∧
    (returned official [correction]).map NewsRecord.version = [1] := by decide +kernel

end Example

end Kripto.Research.NewsSafety
