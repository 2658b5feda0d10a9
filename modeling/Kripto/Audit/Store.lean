/-
# The audit log in the database

`database/audit_store.py`.  `append` links a new row behind the latest row, and `verify` walks
through all rows from the earliest; both go by `(created_at, id)`, the clock of the appending
process and a random id.  The order in which the rows were written is not stored, so a clock that
stands still or goes back can make `append` link to another row than the last, and `verify` then
refuses a log that nobody has touched.  What a failed commit halts is left out.

`verify_iff_increasing`: a log of appends is accepted just when each of them has a greater
`(created_at, id)` than the ones before.
-/
import Kripto.Audit.Record
import Mathlib.Data.List.Sort
import Mathlib.Data.Prod.Lex
import Mathlib.Data.String.Basic

namespace Kripto.Audit

open Effect Python

/-! ## 1. The log -/

/-- The texts of times. -/
class Isoformat where
  isoformat : ℤ → String

structure AuditLog where
  id : String
  previousHash : String
  currentHash : String
  actor : Text
  action : Text
  objectRef : Text
  correlationId : Text
  reason : Text
  releaseVersion : Text
  createdAt : ℤ

/-- What the queries order by. -/
def AuditLog.key (row : AuditLog) : ℤ ×ₗ String := toLex (row.createdAt, row.id)

def AuditLog.le (row row' : AuditLog) : Prop := row.key ≤ row'.key

instance : DecidableRel AuditLog.le := fun row row' =>
  inferInstanceAs (Decidable (row.key ≤ row'.key))

instance : Std.Total AuditLog.le := ⟨fun row row' => le_total row.key row'.key⟩

instance : IsTrans AuditLog AuditLog.le := ⟨fun _ _ _ h h' => le_trans h h'⟩

/-- A call of `append`, with the clock, the id it generates, and whether its commit succeeds if no
unique column is in the way. -/
structure AppendCall where
  actor : Text
  action : Text
  objectRef : Text
  correlationId : Text
  reason : Text
  releaseVersion : Text := Text.of "0.3.0"
  now : ℤ
  id : String
  commits : Bool := true

def AppendCall.key (call : AppendCall) : ℤ ×ₗ String := toLex (call.now, call.id)

/-- The row that is written. -/
def AppendCall.row (call : AppendCall) (prev cur : String) : AuditLog :=
  ⟨call.id, prev, cur, call.actor, call.action, call.objectRef, call.correlationId, call.reason,
    call.releaseVersion, call.now⟩

@[simp] theorem AppendCall.key_row (call : AppendCall) (prev cur : String) :
    (call.row prev cur).key = call.key := rfl

inductive Exc
  | dumpError (e : DumpError)
  | persistentStorageUnavailable

section Log

variable [Hashlib] [Isoformat]

/-- `_ts` of a time in UTC. -/
def ts (t : ℤ) : Text := Text.of ((Isoformat.isoformat t).replace "+00:00" "Z")

/-- `_digest`. -/
def digest (previousHash : String) (actor action objectRef correlationId : Text) (createdAt : ℤ)
    (reason releaseVersion : Text) : Except DumpError String :=
  Record.hash ⟨Text.of previousHash, actor, action, objectRef, correlationId, ts createdAt, reason,
    releaseVersion⟩

/-- The rows as the queries return them, earliest first. -/
def ordered (rows : List AuditLog) : List AuditLog :=
  rows.insertionSort AuditLog.le

/-- The hash of the latest row, or the marker. -/
def previous (rows : List AuditLog) : String :=
  match (ordered rows).getLast? with
  | some row => if row.currentHash = "" then "GENESIS" else row.currentHash
  | none => "GENESIS"

/-- `append`: the hash, and the rows it leaves. -/
def append (rows : List AuditLog) (call : AppendCall) : Except Exc (String × List AuditLog) := do
  let prev := previous rows
  let cur ← (digest prev call.actor call.action call.objectRef call.correlationId call.now
    call.reason call.releaseVersion).mapError .dumpError
  if call.commits ∧ ∀ r ∈ rows, r.id ≠ call.id ∧ r.currentHash ≠ cur then
    return (cur, rows ++ [call.row prev cur])
  else .error .persistentStorageUnavailable

/-- The loop of `verify`. -/
def verifyFrom (prev : String) : List AuditLog → Except DumpError Bool
  | [] => return true
  | row :: rows => do
    if row.previousHash ≠ prev then return false
    else
      let expected ← digest prev row.actor row.action row.objectRef row.correlationId
        row.createdAt row.reason row.releaseVersion
      if expected ≠ row.currentHash then return false
      else verifyFrom row.currentHash rows

def verify (rows : List AuditLog) : Except DumpError Bool := verifyFrom "GENESIS" (ordered rows)

/-- A sequence of appends, each of which succeeds. -/
def appendAll (rows : List AuditLog) (calls : List AppendCall) : Except Exc (List AuditLog) :=
  calls.foldlM (fun rows call => return (← append rows call).2) rows

/-! ## 2. The log as a chain -/

/-- The record of a row that goes on from `prev`. -/
def AuditLog.record (row : AuditLog) (prev : String) : Record :=
  ⟨Text.of prev, row.actor, row.action, row.objectRef, row.correlationId, ts row.createdAt,
    row.reason, row.releaseVersion⟩

def chain : Chain AuditLog String where
  previous := AuditLog.previousHash
  current := AuditLog.currentHash
  digest prev row := Hashlib.sha256 (row.record prev).json

theorem digest_eq (row : AuditLog) (prev : String) :
    digest prev row.actor row.action row.objectRef row.correlationId row.createdAt row.reason
      row.releaseVersion = .ok (chain.digest prev row) :=
  Record.hash_eq _

/-- **The loop** accepts the rows that are linked. -/
theorem verifyFrom_eq_true_iff (prev : String) (rows : List AuditLog) :
    verifyFrom prev rows = .ok true ↔ chain.Linked prev rows := by
  induction rows generalizing prev with
  | nil => simp [verifyFrom, Chain.Linked]
  | cons row rows ih =>
    rw [verifyFrom, digest_eq, ok_bind, Chain.Linked]
    by_cases hprev : row.previousHash = prev
    · by_cases hcur : row.currentHash = chain.digest prev row
      · rw [if_neg (not_not.mpr hprev), if_neg (not_not.mpr hcur.symm), ih]
        exact ⟨fun h => ⟨hprev, hcur, h⟩, fun h => h.2.2⟩
      · rw [if_neg (not_not.mpr hprev), if_pos (Ne.symm hcur)]
        simp only [pure_eq_ok, Except.ok.injEq, Bool.false_eq_true, false_iff]
        exact fun h => hcur h.2.1
    · rw [if_pos hprev]
      simp only [pure_eq_ok, Except.ok.injEq, Bool.false_eq_true, false_iff]
      exact fun h => hprev h.1

theorem verifyFrom_returns (prev : String) (rows : List AuditLog) :
    ∃ accepted, verifyFrom prev rows = .ok accepted := by
  induction rows generalizing prev with
  | nil => exact ⟨true, rfl⟩
  | cons row rows ih =>
    rw [verifyFrom, digest_eq, ok_bind]
    split
    · exact ⟨false, rfl⟩
    · split
      · exact ⟨false, rfl⟩
      · exact ih _

/-! ## 3. The order of the rows -/

/-- What holds of the rows of appends: the columns are unique, and no hash is the marker. -/
structure Distinct (rows : List AuditLog) : Prop where
  ids : (rows.map AuditLog.id).Nodup
  hashes : (rows.map AuditLog.currentHash).Nodup
  marked : ∀ row ∈ rows, row.currentHash ≠ "GENESIS" ∧ row.currentHash ≠ ""

variable {rows : List AuditLog} {row : AuditLog}

omit [Hashlib] [Isoformat] in
theorem mem_ordered : row ∈ ordered rows ↔ row ∈ rows :=
  (List.perm_insertionSort AuditLog.le rows).mem_iff

omit [Hashlib] [Isoformat] in
theorem Distinct.eq_of_key {row' : AuditLog} (h : Distinct rows) (hrow : row ∈ rows)
    (hrow' : row' ∈ rows) (hkey : row.key = row'.key) : row = row' :=
  List.inj_on_of_nodup_map h.ids hrow hrow' (congrArg (fun key => (ofLex key).2) hkey)

omit [Hashlib] [Isoformat] in
/-- The rows are strictly ordered. -/
theorem Distinct.ordered_lt (h : Distinct rows) :
    (ordered rows).Pairwise fun row row' => row.key < row'.key := by
  have hperm := List.perm_insertionSort AuditLog.le rows
  have hids : (ordered rows).Pairwise fun row row' => row.id ≠ row'.id :=
    List.pairwise_map.mp ((hperm.map AuditLog.id).nodup_iff.mpr h.ids)
  refine ((List.pairwise_insertionSort AuditLog.le rows).and hids).imp ?_
  rintro row row' ⟨hle, hne⟩
  exact lt_of_le_of_ne hle fun hkey => hne (congrArg (fun key => (ofLex key).2) hkey)

omit [Hashlib] [Isoformat] in
/-- A row that is later than all others is the last. -/
theorem Distinct.ordered_concat (h : Distinct (rows ++ [row]))
    (hlast : ∀ r ∈ rows, r.key < row.key) :
    ordered (rows ++ [row]) = ordered rows ++ [row] := by
  have hperm : (ordered (rows ++ [row])).Perm (ordered rows ++ [row]) :=
    (List.perm_insertionSort AuditLog.le _).trans
      ((List.perm_insertionSort AuditLog.le rows).symm.append_right [row])
  have hsorted : (ordered rows ++ [row]).Pairwise AuditLog.le := by
    refine List.pairwise_append.mpr ⟨List.pairwise_insertionSort AuditLog.le rows,
      List.pairwise_singleton _ _, fun r hr r' hr' => ?_⟩
    rw [List.mem_singleton.mp hr']
    exact (hlast r (mem_ordered.mp hr)).le
  refine List.Perm.eq_of_pairwise ?_ (List.pairwise_insertionSort AuditLog.le _) hsorted hperm
  intro r r' hr hr' hle hle'
  exact h.eq_of_key (mem_ordered.mp hr) (mem_ordered.mp (hperm.mem_iff.mpr hr'))
    (le_antisymm hle hle')

/-- What `append` links to is the head of the ordered rows. -/
theorem previous_eq (h : Distinct rows) : previous rows = chain.head "GENESIS" (ordered rows) := by
  unfold previous
  rcases List.eq_nil_or_concat' (ordered rows) with hnil | ⟨older, latest, hlatest⟩
  · rw [hnil]
    rfl
  · have hmem : latest ∈ rows := mem_ordered.mp (by simp [hlatest])
    simp [hlatest, (h.marked latest hmem).2, chain]

/-- **A new row keeps the chain** just when it is later than all others. -/
theorem linked_concat_iff (h : Distinct (rows ++ [row]))
    (hprevious : row.previousHash = previous rows)
    (hcurrent : row.currentHash = chain.digest (previous rows) row) :
    chain.Linked "GENESIS" (ordered (rows ++ [row])) ↔
      chain.Linked "GENESIS" (ordered rows) ∧ ∀ r ∈ rows, r.key < row.key := by
  have hrows : Distinct rows := by
    refine ⟨?_, ?_, fun r hr => h.marked r (by simp [hr])⟩
    · exact (List.nodup_append.mp (List.map_append ▸ h.ids)).1
    · exact (List.nodup_append.mp (List.map_append ▸ h.hashes)).1
  rw [previous_eq hrows] at hprevious hcurrent
  constructor
  · intro hlinked
    have hrow : row ∈ ordered (rows ++ [row]) := mem_ordered.mpr (by simp)
    obtain ⟨before, after, hsplit⟩ := List.append_of_mem hrow
    have hnames : chain.head "GENESIS" (ordered rows) = chain.head "GENESIS" before := by
      rw [hsplit] at hlinked
      exact hprevious.symm.trans hlinked.entry.1
    have hlast : ∀ r ∈ rows, r.key < row.key := by
      intro r hr
      rcases List.eq_nil_or_concat' (ordered rows) with hnil | ⟨older, latest, hlatest⟩
      · exact absurd (mem_ordered.mpr hr) (by simp [hnil])
      · have hmem : latest ∈ rows := mem_ordered.mp (by simp [hlatest])
        rw [hlatest, chain.head_concat] at hnames
        -- the row before this one has the hash of the latest row, so it is that row
        rcases List.eq_nil_or_concat' before with rfl | ⟨earlier, link, rfl⟩
        · exact absurd hnames (h.marked latest (by simp [hmem])).1
        · rw [chain.head_concat] at hnames
          have hlink : link ∈ rows ++ [row] := mem_ordered.mp (by simp [hsplit])
          obtain rfl := List.inj_on_of_nodup_map h.hashes (List.mem_append_left _ hmem) hlink hnames
          have hlt : latest.key < row.key := by
            have hordered := h.ordered_lt
            rw [hsplit, List.pairwise_append] at hordered
            exact hordered.2.2 latest (by simp) row (by simp)
          have hle : r.key ≤ latest.key := by
            have hsorted := List.pairwise_insertionSort AuditLog.le rows
            have hr' := mem_ordered.mpr hr
            rw [← ordered, hlatest, List.pairwise_append] at hsorted
            rw [hlatest, List.mem_append, List.mem_singleton] at hr'
            rcases hr' with hr' | rfl
            · exact hsorted.2.2 r hr' latest (by simp)
            · exact le_refl _
          exact hle.trans_lt hlt
    rw [h.ordered_concat hlast, chain.linked_concat] at hlinked
    exact ⟨hlinked.1, hlast⟩
  · rintro ⟨hlinked, hlast⟩
    rw [h.ordered_concat hlast, chain.linked_concat]
    exact ⟨hlinked, hprevious, hcurrent⟩

/-! ## 4. Runs of appends -/

/-- The hash of the row that a call writes. -/
def AppendCall.hash (call : AppendCall) (prev : String) : String :=
  chain.digest prev (call.row prev "")

variable {call : AppendCall} {calls : List AppendCall} {rows' : List AuditLog} {cur : String}

theorem append_eq_ok_iff : append rows call = .ok (cur, rows') ↔
    call.commits = true ∧ cur = call.hash (previous rows) ∧
      (∀ r ∈ rows, r.id ≠ call.id ∧ r.currentHash ≠ cur) ∧
      rows' = rows ++ [call.row (previous rows) cur] := by
  have hdigest : digest (previous rows) call.actor call.action call.objectRef call.correlationId
      call.now call.reason call.releaseVersion = .ok (call.hash (previous rows)) :=
    digest_eq (call.row (previous rows) "") _
  simp only [append, hdigest, Except.mapError, ok_bind]
  split
  · rename_i hnew
    rw [pure_eq_ok, Except.ok.injEq, Prod.mk.injEq]
    constructor
    · rintro ⟨rfl, rfl⟩
      exact ⟨hnew.1, rfl, hnew.2, rfl⟩
    · rintro ⟨-, rfl, -, rfl⟩
      exact ⟨rfl, rfl⟩
  · rename_i hnot
    simp only [reduceCtorEq, false_iff]
    rintro ⟨hcommits, rfl, hnew, -⟩
    exact hnot ⟨hcommits, hnew⟩

theorem Distinct.append (hlength : ∀ text, (Hashlib.sha256 text).length = 64) (h : Distinct rows)
    (hnew : ∀ r ∈ rows, r.id ≠ call.id ∧ r.currentHash ≠ call.hash (previous rows)) :
    Distinct (rows ++ [call.row (previous rows) (call.hash (previous rows))]) := by
  have hmarked : ∀ word : String, word.length ≠ 64 → call.hash (previous rows) ≠ word := by
    rintro word hword rfl
    exact hword (hlength _)
  refine ⟨?_, ?_, fun r hr => ?_⟩
  · rw [List.map_append, List.map_singleton, List.nodup_append]
    refine ⟨h.ids, List.nodup_singleton _, fun id hid id' hid' => ?_⟩
    obtain ⟨r, hr, rfl⟩ := List.mem_map.mp hid
    rw [List.mem_singleton.mp hid']
    exact (hnew r hr).1
  · rw [List.map_append, List.map_singleton, List.nodup_append]
    refine ⟨h.hashes, List.nodup_singleton _, fun hash hhash hash' hhash' => ?_⟩
    obtain ⟨r, hr, rfl⟩ := List.mem_map.mp hhash
    rw [List.mem_singleton.mp hhash']
    exact (hnew r hr).2
  · rcases List.mem_append.mp hr with hr | hr
    · exact h.marked r hr
    · rw [List.mem_singleton.mp hr]
      exact ⟨hmarked "GENESIS" (by decide), hmarked "" (by decide)⟩

/-- **A run of appends** keeps the chain just when it goes by the keys. -/
theorem linked_of_run (hlength : ∀ text, (Hashlib.sha256 text).length = 64)
    (h : appendAll [] calls = .ok rows) :
    Distinct rows ∧ rows.map AuditLog.key = calls.map AppendCall.key ∧
      (chain.Linked "GENESIS" (ordered rows) ↔
        calls.Pairwise fun call call' => call.key < call'.key) := by
  induction calls using List.reverseRecOn generalizing rows with
  | nil =>
    cases h
    exact ⟨⟨List.nodup_nil, List.nodup_nil, by simp⟩, rfl, by simp [ordered, Chain.Linked]⟩
  | append_singleton calls call ih =>
    rw [appendAll, List.foldlM_append, bind_eq_ok_iff] at h
    obtain ⟨older, holder, hcall⟩ := h
    obtain ⟨hdistinct, hkeys, hlinked⟩ := ih holder
    simp only [List.foldlM_cons, List.foldlM_nil, bind_eq_ok_iff, pure_eq_ok,
      Except.ok.injEq] at hcall
    obtain ⟨_, ⟨⟨cur, rows'⟩, happend, rfl⟩, rfl⟩ := hcall
    obtain ⟨-, rfl, hnew, rfl⟩ := append_eq_ok_iff.mp happend
    have hdistinct' := hdistinct.append hlength hnew
    refine ⟨hdistinct', ?_, ?_⟩
    · rw [List.map_append, List.map_append, hkeys]
      rfl
    · rw [linked_concat_iff hdistinct' rfl rfl, hlinked, List.pairwise_append]
      have hlast : (∀ r ∈ older, r.key < call.key) ↔ ∀ call' ∈ calls, call'.key < call.key := by
        have hall : (∀ key ∈ older.map AuditLog.key, key < call.key) ↔ _ := List.forall_mem_map
        rw [← hall, hkeys, List.forall_mem_map]
      simpa using fun _ => hlast

/-- **An honest history is accepted** just when each append has a greater time and id than the
ones before. -/
theorem verify_iff_increasing (hlength : ∀ text, (Hashlib.sha256 text).length = 64)
    (calls : List AppendCall) (rows : List AuditLog) (h : appendAll [] calls = .ok rows) :
    verify rows = .ok true ↔ calls.Pairwise fun call call' => call.key < call'.key :=
  (verifyFrom_eq_true_iff _ _).trans (linked_of_run hlength h).2.2

end Log

/-! ## 5. A clock that goes back -/

@[reducible] def plainIsoformat : Isoformat := ⟨fun _ => "2026-01-01T00:00:00+00:00"⟩

attribute [local instance] beginnings plainIsoformat

def liveDisable (t : ℤ) : AppendCall :=
  ⟨Text.of "admin", Text.of "LIVE_DISABLE", Text.of "account:a", Text.of "c1", Text.of "test",
    Text.of "0.3.0", t, "a", true⟩

def riskResume (t : ℤ) : AppendCall :=
  ⟨Text.of "admin", Text.of "RISK_RESUME", Text.of "account:a", Text.of "c2", Text.of "test",
    Text.of "0.3.0", t, "b", true⟩

/-- The hashes differ from the first letter of the action on. -/
theorem hash_ne (t t' : ℤ) (prev prev' : String) :
    (liveDisable t).hash prev ≠ (riskResume t').hash prev' := by
  have hfirst : ((liveDisable t).hash prev).toList[11]? = some 'L' := by
    change (String.ofList _).toList[11]? = _
    rw [String.toList_ofList]
    simp only [Record.json, Text.chars, String.toList_ofList]
    rfl
  have hsecond : ((riskResume t').hash prev').toList[11]? = some 'R' := by
    change (String.ofList _).toList[11]? = _
    rw [String.toList_ofList]
    simp only [Record.json, Text.chars, String.toList_ofList]
    rfl
  intro h
  rw [h, hsecond] at hfirst
  cases hfirst

theorem twoAppends_succeed (t t' : ℤ) :
    ∃ rows, appendAll [] [liveDisable t, riskResume t'] = .ok rows := by
  obtain ⟨row, hrow⟩ : ∃ row, row = (liveDisable t).row (previous [])
    ((liveDisable t).hash (previous [])) := ⟨_, rfl⟩
  have hfirst : append [] (liveDisable t) = .ok (row.currentHash, [row]) :=
    append_eq_ok_iff.mpr ⟨rfl, by rw [hrow]; rfl, by simp, by rw [hrow]; rfl⟩
  have hnew : ∀ r ∈ [row], r.id ≠ (riskResume t').id ∧
      r.currentHash ≠ (riskResume t').hash (previous [row]) := by
    intro r hr
    rw [List.mem_singleton.mp hr, hrow]
    exact ⟨(by decide : "a" ≠ "b"), hash_ne t t' _ _⟩
  have hsecond := append_eq_ok_iff.mpr ⟨(rfl : (riskResume t').commits = true), rfl, hnew, rfl⟩
  simp only [appendAll, List.foldlM_cons, List.foldlM_nil, hfirst, pure_eq_ok, ok_bind, hsecond]
  exact ⟨_, rfl⟩

/-- Both appends succeed, and the log is accepted. -/
theorem verify_iff_increasing_forward :
    ∃ rows, appendAll [] [liveDisable 0, riskResume 1] = .ok rows ∧ verify rows = .ok true := by
  obtain ⟨rows, hrows⟩ := twoAppends_succeed 0 1
  exact ⟨rows, hrows, (verify_iff_increasing length_beginnings _ rows hrows).mpr (by decide)⟩

/-- **Both appends succeed**, the second at an earlier time, and the log is refused. -/
theorem backward_refused :
    ∃ rows, appendAll [] [liveDisable 1, riskResume 0] = .ok rows ∧ verify rows = .ok false := by
  obtain ⟨rows, hrows⟩ := twoAppends_succeed 1 0
  refine ⟨rows, hrows, ?_⟩
  have hnot : ¬ verify rows = .ok true := by
    rw [verify, verifyFrom_eq_true_iff, (linked_of_run length_beginnings hrows).2.2]
    decide
  obtain ⟨accepted, haccepted⟩ := verifyFrom_returns "GENESIS" (ordered rows)
  rw [verify, haccepted] at hnot ⊢
  simpa using hnot

end Kripto.Audit
