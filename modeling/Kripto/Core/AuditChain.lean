/-
# The audit chain in memory

`core/audit.py`: each entry names the hash of the one before and is hashed as canonical JSON.

Two chains that are verified and end in the same hash agree entry by entry: in their hashes, and in
the UTF-16 code units of every field (`tamper_evidence`).  Python can tell apart fields that agree
so, since a surrogate pair may stand in a text as two code points, and the JSON is the same
(`surrogates_unbound`).
-/
import Kripto.Audit.Record

namespace Kripto.Core

open Effect Python Audit

/-! ## 1. The chain -/

structure AuditEntry where
  previousHash : Text
  currentHash : Text
  actor : Text
  action : Text
  objectRef : Text
  correlationId : Text
  timestamp : Text
  reason : Text
  releaseVersion : Text
  deriving DecidableEq

/-- What it is hashed with. -/
def AuditEntry.record (e : AuditEntry) : Record :=
  ⟨e.previousHash, e.actor, e.action, e.objectRef, e.correlationId, e.timestamp, e.reason,
    e.releaseVersion⟩

structure AuditChain where
  entries : List AuditEntry := []

/-- A call of `append`, with the time it reads from the clock. -/
structure AppendCall where
  actor : Text
  action : Text
  objectRef : Text
  correlationId : Text
  reason : Text
  releaseVersion : Text := Text.of "0.3.0"
  ts : Text

def AppendCall.record (call : AppendCall) (prev : Text) : Record :=
  ⟨prev, call.actor, call.action, call.objectRef, call.correlationId, call.ts, call.reason,
    call.releaseVersion⟩

def GENESIS : Text := Text.of "GENESIS"

namespace AuditChain

/-- The hash that the next entry names. -/
def previous (c : AuditChain) : Text :=
  match c.entries.getLast? with
  | some e => e.currentHash
  | none => GENESIS

section Hashes

variable [Hashlib]

def append (c : AuditChain) (call : AppendCall) : Except DumpError (AuditEntry × AuditChain) := do
  let prev := c.previous
  let current ← (call.record prev).hash
  let entry : AuditEntry := ⟨prev, Text.of current, call.actor, call.action, call.objectRef,
    call.correlationId, call.ts, call.reason, call.releaseVersion⟩
  return (entry, ⟨c.entries ++ [entry]⟩)

/-- The loop of `verify`. -/
def verifyFrom (prev : Text) : List AuditEntry → Except DumpError Bool
  | [] => return true
  | e :: entries => do
    if e.previousHash ≠ prev then return false
    else if Text.of (← e.record.hash) ≠ e.currentHash then return false
    else verifyFrom e.currentHash entries

def verify (c : AuditChain) : Except DumpError Bool := verifyFrom GENESIS c.entries

/-- A chain that is built by appends. -/
def appendAll (c : AuditChain) (calls : List AppendCall) : Except DumpError AuditChain :=
  calls.foldlM (fun c call => return (← c.append call).2) c

/-! ## 2. Verified chains -/

def chain : Chain AuditEntry Text where
  previous := AuditEntry.previousHash
  current := AuditEntry.currentHash
  digest prev e := Text.of (Hashlib.sha256 (Record.json { e.record with previousHash := prev }))

theorem digest_eq (e : AuditEntry) :
    Text.of (Hashlib.sha256 e.record.json) = chain.digest e.previousHash e := rfl

/-- **The loop** accepts the entries that are linked. -/
theorem verifyFrom_eq_true_iff (prev : Text) (entries : List AuditEntry) :
    verifyFrom prev entries = .ok true ↔ chain.Linked prev entries := by
  induction entries generalizing prev with
  | nil => simp [verifyFrom, Chain.Linked]
  | cons e entries ih =>
    rw [verifyFrom, Record.hash_eq, ok_bind, digest_eq, Chain.Linked]
    by_cases hprev : e.previousHash = prev
    · subst hprev
      by_cases hcur : e.currentHash = chain.digest e.previousHash e
      · rw [if_neg (not_not.mpr rfl), if_neg (not_not.mpr hcur.symm), ih]
        exact ⟨fun h => ⟨rfl, hcur, h⟩, fun h => h.2.2⟩
      · rw [if_neg (not_not.mpr rfl), if_pos (Ne.symm hcur)]
        simp only [pure_eq_ok, Except.ok.injEq, Bool.false_eq_true, false_iff]
        exact fun h => hcur h.2.1
    · rw [if_pos hprev]
      simp only [pure_eq_ok, Except.ok.injEq, Bool.false_eq_true, false_iff]
      exact fun h => hprev h.1

theorem previous_eq_head (c : AuditChain) : c.previous = chain.head GENESIS c.entries := by
  unfold previous
  rcases List.eq_nil_or_concat' c.entries with hnil | ⟨older, e, hsplit⟩
  · rw [hnil]
    rfl
  · rw [hsplit, List.getLast?_concat, chain.head_concat]
    rfl

/-- **An append** returns, and keeps the chain. -/
theorem append_linked (c : AuditChain) (call : AppendCall)
    (hlinked : chain.Linked GENESIS c.entries) :
    ∃ entry c', c.append call = .ok (entry, c') ∧ chain.Linked GENESIS c'.entries := by
  rw [append, Record.hash_eq, ok_bind]
  refine ⟨_, _, rfl, chain.linked_concat.mpr ⟨hlinked, c.previous_eq_head, ?_⟩⟩
  rw [← previous_eq_head]
  rfl

/-- **A chain that is built by appends** is verified. -/
theorem verify_appendAll (calls : List AppendCall) :
    ∃ c, appendAll {} calls = .ok c ∧ c.verify = .ok true := by
  suffices h : ∀ c : AuditChain, chain.Linked GENESIS c.entries →
      ∃ c', appendAll c calls = .ok c' ∧ chain.Linked GENESIS c'.entries by
    obtain ⟨c, hbuilt, hlinked⟩ := h {} trivial
    exact ⟨c, hbuilt, (verifyFrom_eq_true_iff _ _).mpr hlinked⟩
  induction calls with
  | nil => exact fun c hlinked => ⟨c, rfl, hlinked⟩
  | cons call calls ih =>
    intro c hlinked
    obtain ⟨entry, c', hok, hlinked'⟩ := append_linked c call hlinked
    obtain ⟨c'', hbuilt, hlinked''⟩ := ih c' hlinked'
    refine ⟨c'', ?_, hlinked''⟩
    rw [appendAll, List.foldlM_cons, hok, ok_bind]
    exact hbuilt

/-! ## 3. What the last hash binds -/

/-- The texts that are hashed for the entries. -/
def HashedTexts (entries : List AuditEntry) : Set String :=
  {text | ∃ e ∈ entries, text = e.record.json}

/-- Entries with the same hashes, and the same code units in every field. -/
structure Alike (e e' : AuditEntry) : Prop where
  previousHash : e.previousHash = e'.previousHash
  currentHash : e.currentHash = e'.currentHash
  units : e.record.units = e'.record.units

/-- No two surrogates make a pair in any field. -/
def NoPairs (c : AuditChain) : Prop := ∀ e ∈ c.entries, e.record.NoPair

omit [Hashlib] in
theorem eq_of_alike {e e' : AuditEntry} (he : e.record.NoPair) (he' : e'.record.NoPair)
    (h : Alike e e') : e = e' := by
  have hrecord := Record.eq_of_units he he' h.units
  have hcurrent := h.currentHash
  cases e
  cases e'
  simp only [AuditEntry.record, Record.mk.injEq] at hrecord hcurrent ⊢
  simp [hrecord, hcurrent]

variable {entries entries' : List AuditEntry}

/-- Where the chain stands before an entry of it. -/
theorem step_eq (hlinked : chain.Linked GENESIS entries) {p : Text × AuditEntry}
    (hp : p ∈ Steps chain.digest GENESIS entries) :
    p.2 ∈ entries ∧ p.1 = p.2.previousHash ∧ p.2.currentHash = chain.digest p.1 p.2 := by
  obtain ⟨before, after, rfl, hfold⟩ := hp
  obtain ⟨hprevious, hcurrent⟩ := hlinked.entry
  have hhead : chain.head GENESIS before = p.1 := by
    rw [(chain.linked_append.mp hlinked).1.head_eq, hfold]
  rw [hhead] at hprevious hcurrent
  exact ⟨by simp, hprevious.symm, hcurrent⟩

/-- A step of a chain gives the hash of what the entry is hashed with. -/
theorem digest_step (hlinked : chain.Linked GENESIS entries) {p : Text × AuditEntry}
    (hp : p ∈ Steps chain.digest GENESIS entries) :
    chain.digest p.1 p.2 = Text.of (Hashlib.sha256 p.2.record.json) ∧
      p.2.record.json ∈ HashedTexts entries := by
  obtain ⟨hmem, hprevious, -⟩ := step_eq hlinked hp
  exact ⟨by rw [hprevious, digest_eq], p.2, hmem, rfl⟩

/-- What an entry names can be encoded. -/
theorem encodable_foldl (entries : List AuditEntry) :
    (entries.foldl chain.digest GENESIS).Encodable := by
  rcases List.eq_nil_or_concat' entries with rfl | ⟨older, e, rfl⟩
  · exact Text.encodable_of _
  · rw [List.foldl_concat]
    exact Text.encodable_of _

/-- **Verified chains** with the same last hash are alike, entry by entry. -/
theorem linked_alike (hlength : ∀ text, (Hashlib.sha256 text).length = 64)
    (hinjective : Set.InjOn Hashlib.sha256 (HashedTexts entries ∪ HashedTexts entries'))
    (hlinked : chain.Linked GENESIS entries) (hlinked' : chain.Linked GENESIS entries')
    (hhead : chain.head GENESIS entries = chain.head GENESIS entries') :
    List.Forall₂ Alike entries entries' := by
  have hunits : ∀ {p p' : Text × AuditEntry}, p ∈ Steps chain.digest GENESIS entries →
      p' ∈ Steps chain.digest GENESIS entries' → chain.digest p.1 p.2 = chain.digest p'.1 p'.2 →
        p.2.record.units = p'.2.record.units := by
    intro p p' hp hp' heq
    obtain ⟨hdigest, hmem⟩ := digest_step hlinked hp
    obtain ⟨hdigest', hmem'⟩ := digest_step hlinked' hp'
    rw [hdigest, hdigest'] at heq
    exact Record.json_eq_iff.mp (hinjective (.inl hmem) (.inr hmem') (Text.of_injective heq))
  have hprevious : ∀ p ∈ Steps chain.digest GENESIS entries,
      ∀ p' ∈ Steps chain.digest GENESIS entries',
        chain.digest p.1 p.2 = chain.digest p'.1 p'.2 → p.1 = p'.1 := by
    intro p hp p' hp' heq
    have hencodable : p.1.Encodable ∧ p'.1.Encodable := by
      obtain ⟨before, _, -, hfold⟩ := hp
      obtain ⟨before', _, -, hfold'⟩ := hp'
      rw [hfold, hfold']
      exact ⟨encodable_foldl _, encodable_foldl _⟩
    have hfield := Record.previousHash_units (hunits hp hp' heq)
    rw [(step_eq hlinked hp).2.1, (step_eq hlinked' hp').2.1] at hencodable ⊢
    exact Text.units_inj hencodable.1.noPair hencodable.2.noPair hfield
  refine foldl_alike ?_ hprevious ?_ (hlinked.head_eq.symm.trans (hhead.trans hlinked'.head_eq))
  · -- a digest is longer than the marker
    intro p _ hgenesis
    have htexts := congrArg List.length hgenesis
    have hmarker : "GENESIS".length = 7 := by decide
    rw [GENESIS, Text.length_of] at htexts
    have hdigest : (chain.digest p.1 p.2).length = 64 := (Text.length_of _).trans (hlength _)
    omega
  · intro before e after before' e' after' hsplit hsplit' _ heq
    have hp : (before.foldl chain.digest GENESIS, e) ∈ Steps chain.digest GENESIS entries :=
      ⟨before, after, hsplit, rfl⟩
    have hp' : (before'.foldl chain.digest GENESIS, e') ∈ Steps chain.digest GENESIS entries' :=
      ⟨before', after', hsplit', rfl⟩
    obtain ⟨-, hnames, hcurrent⟩ := step_eq hlinked hp
    obtain ⟨-, hnames', hcurrent'⟩ := step_eq hlinked' hp'
    exact ⟨hnames.symm.trans ((hprevious _ hp _ hp' heq).trans hnames'),
      hcurrent.trans (heq.trans hcurrent'.symm), hunits hp hp' heq⟩

omit [Hashlib] in
theorem eq_of_forall_alike (h : List.Forall₂ Alike entries entries')
    (hpairs : ∀ e ∈ entries, e.record.NoPair) (hpairs' : ∀ e ∈ entries', e.record.NoPair) :
    entries = entries' := by
  induction h with
  | nil => rfl
  | cons halike _ ih =>
    rw [List.forall_mem_cons] at hpairs hpairs'
    rw [eq_of_alike hpairs.1 hpairs'.1 halike, ih hpairs.2 hpairs'.2]

/-- **Tamper evidence.**  Two verified chains whose last entries have the same hash agree entry by
entry, and are the same unless a field holds a surrogate pair; and every chain that is built by
appends is verified. -/
theorem tamper_evidence (hlength : ∀ text, (Hashlib.sha256 text).length = 64)
    (c c' : AuditChain) (e e' : AuditEntry)
    (hinjective : Set.InjOn Hashlib.sha256 (HashedTexts c.entries ∪ HashedTexts c'.entries))
    (hverify : c.verify = .ok true) (hverify' : c'.verify = .ok true)
    (hlast : c.entries.getLast? = some e) (hlast' : c'.entries.getLast? = some e')
    (hhash : e.currentHash = e'.currentHash) :
    List.Forall₂ Alike c.entries c'.entries ∧
      (c.NoPairs → c'.NoPairs → c.entries = c'.entries) ∧
      ∀ calls, ∃ built, appendAll {} calls = .ok built ∧ built.verify = .ok true := by
  have hhead : chain.head GENESIS c.entries = chain.head GENESIS c'.entries := by
    rw [← previous_eq_head, ← previous_eq_head, previous, previous, hlast, hlast']
    exact hhash
  have halike := linked_alike hlength hinjective ((verifyFrom_eq_true_iff _ _).mp hverify)
    ((verifyFrom_eq_true_iff _ _).mp hverify') hhead
  exact ⟨halike, eq_of_forall_alike halike, verify_appendAll⟩

/-! ## 4. Surrogate pairs -/

/-- The only entry of a chain. -/
def opened (actor : Text) : AuditEntry :=
  let record : Record := ⟨GENESIS, actor, Text.of "OPEN", Text.of "account", Text.of "corr-1",
    Text.of "2026-01-01T00:00:00Z", Text.of "start", Text.of "0.3.0"⟩
  ⟨GENESIS, Text.of (Hashlib.sha256 record.json), record.actor, record.action, record.objectRef,
    record.correlationId, record.timestamp, record.reason, record.releaseVersion⟩

theorem verify_opened (actor : Text) : verify ⟨[opened actor]⟩ = .ok true :=
  (verifyFrom_eq_true_iff _ _).mpr ⟨rfl, rfl, trivial⟩

theorem json_opened {actor actor' : Text} (h : actor.units = actor'.units) :
    (opened actor).record.json = (opened actor').record.json := by
  refine Record.json_eq_iff.mpr ?_
  simp only [opened, AuditEntry.record, Record.units, Record.sorted, List.map_cons, List.map_nil, h]

theorem currentHash_opened (actor : Text) :
    (opened actor).currentHash = Text.of (Hashlib.sha256 (opened actor).record.json) := rfl

end Hashes

/-- U+1F600, as one code point. -/
def joined : Text := [.scalar (Char.ofNat 0x1f600)]

/-- The surrogates U+D83D and U+DE00, which stand for it. -/
def surrogates : Text :=
  [.surrogate (Fin.ofNat 2048 0x3d), .surrogate (Fin.ofNat 2048 0x600)]

theorem units_joined : joined.units = surrogates.units := by
  decide

theorem currentHash_joined [Hashlib] :
    (opened joined).currentHash = (opened surrogates).currentHash := by
  rw [currentHash_opened, currentHash_opened, json_opened units_joined]

/-- Whatever the hash function, **an actor** whose name holds a character can be replaced by one
whose name holds the two surrogates of it. -/
theorem surrogates_unbound : joined ≠ surrogates ∧ ∀ [Hashlib],
    verify ⟨[opened joined]⟩ = .ok true ∧ verify ⟨[opened surrogates]⟩ = .ok true ∧
      (opened joined).currentHash = (opened surrogates).currentHash ∧
      opened joined ≠ opened surrogates := by
  refine ⟨by decide, ?_⟩
  intro _
  refine ⟨verify_opened _, verify_opened _, currentHash_joined, fun h => ?_⟩
  have hactor : joined = surrogates := congrArg AuditEntry.actor h
  exact absurd hactor (by decide)

theorem tamper_evidence_joined :
    List.Forall₂ (@Alike) [@opened beginnings joined] [@opened beginnings surrogates] := by
  have hinjective : Set.InjOn beginnings.sha256
      (HashedTexts [@opened beginnings joined] ∪ HashedTexts [@opened beginnings surrogates]) := by
    have hone : ∀ text ∈ HashedTexts [@opened beginnings joined] ∪
        HashedTexts [@opened beginnings surrogates],
          text = (@opened beginnings surrogates).record.json := by
      rintro text (⟨e, he, rfl⟩ | ⟨e, he, rfl⟩) <;> rw [List.mem_singleton.mp he]
      exact @json_opened beginnings _ _ units_joined
    exact fun text h text' h' _ => (hone text h).trans (hone text' h').symm
  exact (@tamper_evidence beginnings length_beginnings ⟨[_]⟩ ⟨[_]⟩ _ _ hinjective
    (@verify_opened beginnings _) (@verify_opened beginnings _) rfl rfl
    (@currentHash_joined beginnings)).1

end AuditChain

end Kripto.Core
