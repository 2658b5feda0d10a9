/-
# What the head of the evidence ledger anchors

Every entry is hashed with the hash of the entry before it, so whoever has noted the head of a
ledger has noted all of it.  `head_anchors`: a later ledger that has an entry with this hash begins
with the entries that the head was noted for, by everything that is hashed of them.
-/
import Kripto.Effect.Chain
import Kripto.Python.ReadBack
import Kripto.Release.LedgerClosure

namespace Kripto.Release

open Effect Python Loads

section Heads

variable [Hashlib] [LedgerRuntime] {scan scan' : Scan} {idx : ℕ} {entry entry' : PyValue}
  {entries entries' : List PyValue} {prev : Text}

/-! ## 1. The hash of an entry -/

/-- The hash that the next entry has to name. -/
def nextHash (prev : Text) : PyValue → Text
  | .dict fields =>
    match canonicalHash (core fields) with
    | .ok hash => Text.of hash
    | .error _ => prev
  | _ => prev

/-- What the verifier has found of an entry that goes on from `prev`. -/
structure GoesOn (prev : Text) (entry : PyValue) (fields : Dict) (hash : String) : Prop where
  entry_eq : entry = .dict fields
  previous : dictGet fields "previous_hash" = .str prev
  hashed : canonicalHash (core fields) = .ok hash
  own : dictGet fields "entry_hash" = .str (Text.of hash)

theorem goesOn_of_scanEntry (h : scanEntry scan idx entry = .ok scan')
    (hclean : scan'.problems = []) : ∃ fields hash, GoesOn scan.prev entry fields hash := by
  cases entry with
  | dict fields =>
    simp only [scanEntry, bind_eq_ok_iff, pure_eq_ok, Except.ok.injEq] at h
    obtain ⟨hash, hhash, seen, -, rfl⟩ := h
    simp only [List.append_eq_nil_iff, report_eq_nil_iff, Bool.not_eq_false',
      PyValue.isText_iff] at hclean
    obtain ⟨-, ⟨⟨-, hprevious⟩, hown⟩, -⟩ := hclean
    exact ⟨fields, hash, rfl, hprevious, hhash, hown⟩
  | _ =>
    simp only [scanEntry, pure_eq_ok, Except.ok.injEq] at h
    subst h
    simp [report] at hclean

omit [LedgerRuntime] in
theorem GoesOn.nextHash_eq {fields : Dict} {hash : String} (h : GoesOn prev entry fields hash)
    (prev' : Text) : nextHash prev' entry = Text.of hash := by
  rw [h.entry_eq, nextHash, h.hashed]

/-- **A clean scan** ends at the hash of the chain, and each entry goes on from those before it. -/
theorem scanAll_chain (hlength : ∀ text, (Hashlib.sha256 text).length = 64)
    (h : scanAll [] entries = .ok scan) (hclean : scan.problems = []) :
    scan.prev = entries.foldl nextHash (Text.of GENESIS) ∧
      ∀ before entry after, entries = before ++ entry :: after →
        ∃ fields hash, GoesOn (before.foldl nextHash (Text.of GENESIS)) entry fields hash := by
  induction entries using List.reverseRecOn generalizing scan with
  | nil =>
    cases h
    refine ⟨rfl, fun before entry after heq => ?_⟩
    exact absurd heq.symm (List.append_ne_nil_of_right_ne_nil before (List.cons_ne_nil _ _))
  | append_singleton entries last ih =>
    rw [scanAll_concat, bind_eq_ok_iff] at h
    obtain ⟨older, holder, hlast⟩ := h
    have hturn := clean_of_scanEntry hlast hclean
    obtain ⟨hprev, hgoesOn⟩ := ih holder hturn.before
    obtain ⟨fields, hash, hnew⟩ := goesOn_of_scanEntry hlast hclean
    refine ⟨?_, fun before entry after heq => ?_⟩
    · obtain ⟨-, ⟨fields', hash', rfl, hhash', -, hprev'⟩, -⟩ := hturn
      rw [List.foldl_append, List.foldl_cons, List.foldl_nil, nextHash, hhash', hprev',
        strOr_hash (length_canonicalHash hlength hhash')]
    · rcases List.eq_nil_or_concat' after with rfl | ⟨after, last', rfl⟩
      · obtain ⟨rfl, hentry⟩ := List.append_inj' heq rfl
        obtain rfl := (List.cons.inj hentry).1
        exact ⟨fields, hash, hprev ▸ hnew⟩
      · rw [← List.cons_append, ← List.append_assoc] at heq
        exact hgoesOn before entry after (List.append_inj' heq rfl).1

/-! ## 2. Entries with the same hash -/

/-- The texts that are hashed. -/
def HashedTexts (entries : List PyValue) : Set String :=
  {text | ∃ fields, PyValue.dict fields ∈ entries ∧
    (PyValue.dict (core fields)).bytes { ensureAscii := false } = .ok text}

/-- Two entries of which the same has been hashed, field by field. -/
def SameCore (entry entry' : PyValue) : Prop :=
  ∃ fields fields', entry = .dict fields ∧ entry' = .dict fields' ∧
    ∀ name ∈ CORE, ∃ j, (dictGet fields name).tree false = .ok j ∧
      (dictGet fields' name).tree false = .ok j

omit [LedgerRuntime] in
theorem canonicalHash_eq_ok_iff {payload : Dict} {hash : String} :
    canonicalHash payload = .ok hash ↔ ∃ text,
      (PyValue.dict payload).bytes { ensureAscii := false } = .ok text ∧
        Hashlib.sha256 text = hash := by
  unfold canonicalHash
  cases (PyValue.dict payload).bytes { ensureAscii := false } with
  | ok text => simp
  | error e => simp

variable [PyFloatRepr]

/-- The floats of what is hashed are read as they are written. -/
def FloatsRead (entries : List PyValue) : Prop :=
  ∀ fields, PyValue.dict fields ∈ entries → (PyValue.dict (core fields)).FloatsRead

omit [LedgerRuntime] in
/-- **The same hash**: the same fields, the hash of the entry before among them. -/
theorem GoesOn.same {fields fields' : Dict} {hash : String} {prev' : Text}
    (hcollision : Set.InjOn Hashlib.sha256 (HashedTexts entries ∪ HashedTexts entries'))
    (hfloats : FloatsRead entries) (hfloats' : FloatsRead entries')
    (hmem : entry ∈ entries) (hmem' : entry' ∈ entries') (h : GoesOn prev entry fields hash)
    (h' : GoesOn prev' entry' fields' hash) : SameCore entry entry' ∧ prev = prev' := by
  obtain ⟨rfl, hprevious, hhashed, -⟩ := h
  obtain ⟨rfl, hprevious', hhashed', -⟩ := h'
  obtain ⟨text, htext, hsha⟩ := canonicalHash_eq_ok_iff.mp hhashed
  obtain ⟨text', htext', hsha'⟩ := canonicalHash_eq_ok_iff.mp hhashed'
  obtain rfl := hcollision (.inl ⟨fields, hmem, htext⟩) (.inr ⟨fields', hmem', htext'⟩)
    (hsha.trans hsha'.symm)
  obtain ⟨j, hj, -⟩ := bytes_plain_eq_ok_iff.mp htext
  have hj' := tree_eq_of_bytes (hfloats fields hmem) (hfloats' fields' hmem') htext htext' ▸ hj
  let value (fields : Dict) (name : Text) : PyValue := (fields.lookup (.str name)).getD .none
  have hfields := @tree_field_eq (CORE.map Text.of) (value fields) (value fields') j (by decide)
    hj hj'
  have hsame : ∀ name ∈ CORE, ∃ j, (dictGet fields name).tree false = .ok j ∧
      (dictGet fields' name).tree false = .ok j :=
    fun name hname => hfields _ (List.mem_map_of_mem hname)
  refine ⟨⟨fields, fields', rfl, rfl, hsame⟩, ?_⟩
  obtain ⟨j, hj, hj'⟩ := hsame "previous_hash" (by decide)
  rw [hprevious] at hj
  rw [hprevious'] at hj'
  cases hj
  cases hj'
  rfl

omit [LedgerRuntime] [PyFloatRepr] in
theorem GoesOn.ne_genesis {fields : Dict} {hash : String}
    (hgenesis : ∀ text ∈ HashedTexts entries, Hashlib.sha256 text ≠ GENESIS)
    (hmem : entry ∈ entries) (h : GoesOn prev entry fields hash) :
    nextHash prev entry ≠ Text.of GENESIS := by
  rw [h.nextHash_eq, Text.of_injective.ne_iff]
  obtain ⟨rfl, -, hhashed, -⟩ := h
  obtain ⟨text, htext, rfl⟩ := canonicalHash_eq_ok_iff.mp hhashed
  exact hgenesis text ⟨fields, hmem, htext⟩

/-! ## 3. The head -/

/-- **The head of a ledger** is found in a later one only behind the same entries. -/
theorem head_anchors {file file' : File} {report : Report} {before after : List PyValue}
    {fields : Dict} {head : Text} (hlength : ∀ text, (Hashlib.sha256 text).length = 64)
    (hcollision : Set.InjOn Hashlib.sha256
      (HashedTexts (entriesOf file) ∪ HashedTexts (entriesOf file')))
    (hgenesis : ∀ text ∈ HashedTexts (entriesOf file) ∪ HashedTexts (entriesOf file'),
      Hashlib.sha256 text ≠ GENESIS)
    (hfloats : FloatsRead (entriesOf file)) (hfloats' : FloatsRead (entriesOf file'))
    (h : verifyLedger false file = .ok report) (hverified : report.verified = true)
    (hhead : report.headHash = some head) (h' : Accepted file')
    (hentries : entriesOf file' = before ++ .dict fields :: after)
    (hfields : dictGet fields "entry_hash" = .str head) :
    List.Forall₂ SameCore (entriesOf file) (before ++ [.dict fields]) := by
  obtain ⟨scan, hscan, hclean, hreport⟩ := scan_of_verified h hverified
  obtain ⟨scan', hscan', hclean'⟩ := h'.clean
  obtain ⟨hprev, hgoesOn⟩ := scanAll_chain hlength hscan hclean
  obtain ⟨-, hgoesOn'⟩ := scanAll_chain hlength hscan' hclean'
  -- what is known of a step in either ledger
  have hstep : ∀ p ∈ Steps nextHash (Text.of GENESIS) (entriesOf file),
      p.2 ∈ entriesOf file ∧ ∃ fields hash, GoesOn p.1 p.2 fields hash := by
    rintro ⟨prev, entry⟩ ⟨before, after, heq, rfl⟩
    exact ⟨by simp [heq], hgoesOn before entry after heq⟩
  have hstep' : ∀ p ∈ Steps nextHash (Text.of GENESIS) (before ++ [.dict fields]),
      p.2 ∈ entriesOf file' ∧ ∃ fields hash, GoesOn p.1 p.2 fields hash := by
    intro p hp
    have hsplit : entriesOf file' = before ++ [.dict fields] ++ after := by simp [hentries]
    obtain ⟨before, after, heq, hprev⟩ := hsplit ▸ steps_append_left hp
    exact ⟨by simp [heq], hprev ▸ hgoesOn' before p.2 after heq⟩
  have hsame : ∀ p ∈ Steps nextHash (Text.of GENESIS) (entriesOf file),
      ∀ p' ∈ Steps nextHash (Text.of GENESIS) (before ++ [.dict fields]),
        nextHash p.1 p.2 = nextHash p'.1 p'.2 → SameCore p.2 p'.2 ∧ p.1 = p'.1 := by
    intro p hp p' hp' heq
    obtain ⟨hmem, fields, hash, hp⟩ := hstep p hp
    obtain ⟨hmem', fields', hash', hp'⟩ := hstep' p' hp'
    rw [hp.nextHash_eq, hp'.nextHash_eq] at heq
    obtain rfl := Text.of_injective heq
    exact hp.same hcollision hfloats hfloats' hmem hmem' hp'
  refine foldl_alike ?_ (fun p hp p' hp' heq => (hsame p hp p' hp' heq).2) ?_ ?_
  · rintro p (hp | hp)
    · obtain ⟨hmem, fields, hash, hp⟩ := hstep p hp
      exact hp.ne_genesis (fun text htext => hgenesis text (.inl htext)) hmem
    · obtain ⟨hmem, fields, hash, hp⟩ := hstep' p hp
      exact hp.ne_genesis (fun text htext => hgenesis text (.inr htext)) hmem
  · intro b e a b' e' a' heq heq' _ hhash
    exact (hsame (_, e) ⟨b, a, heq, rfl⟩ (_, e') ⟨b', a', heq', rfl⟩ hhash).1
  · obtain ⟨fields', hash, hlast⟩ := hgoesOn' before _ after hentries
    obtain rfl := PyValue.dict.inj hlast.entry_eq
    have hown := hlast.own.symm.trans hfields
    rw [List.foldl_append, List.foldl_cons, List.foldl_nil, hlast.nextHash_eq, ← hprev,
      PyValue.str.inj hown]
    exact Option.some.inj (hreport.symm.trans hhead)

end Heads

/-! ## 4. A ledger of two entries -/

section Example

/-- A text is read as it is. -/
@[reducible] def verbatim : PyFloatRepr := ⟨id⟩

attribute [local instance] verbatim plainRuntime beginnings

/-- The manifest of a challenge. -/
def challenge (c : Char) : Args := ⟨[.scalar c], [.scalar c], Text.of "g1", Text.of "runtime"⟩

/-- An entry that has been appended for it. -/
def MadeFor (c : Char) (fields : Dict) : Prop :=
  ∃ entries prev hash, fields = withHash (newCore entries (challenge c) 0 (.str prev)) hash

def Plain (c : Char) : Prop := quote false [.scalar c] = [.scalar '"', .scalar c, .scalar '"']

/-- What is hashed begins with this, and with the challenge. -/
def opening : List Char := "\x7b\"challenge_id\":\"".toList

theorem prefix_beginnings {pre : List Char} {text : String} (h : pre <+: text.toList)
    (hlength : pre.length ≤ 64) : pre <+: (beginnings.sha256 text).toList := by
  change pre <+: (String.ofList (List.take 64 (text.toList ++ _))).toList
  rw [String.toList_ofList, List.prefix_take_iff]
  exact ⟨h.trans (List.prefix_append _ _), hlength⟩

/-- A digest shows the challenge. -/
theorem digest_of_madeFor {c : Char} {fields : Dict} {text : String} (hplain : Plain c)
    (h : MadeFor c fields)
    (htext : (PyValue.dict (core fields)).bytes { ensureAscii := false } = .ok text) :
    opening ++ [c] <+: (beginnings.sha256 text).toList := by
  obtain ⟨entries, prev, hash, rfl⟩ := h
  rw [core_withHash, PyValue.bytes, dumps_newCore, ok_bind] at htext
  obtain ⟨rest, hrest⟩ : ∃ rest, writeDict false (sortedCore entries (challenge c) 0 prev) =
      (opening ++ [c]).map .scalar ++ rest := by
    have hquote : quote false [.scalar c] = [.scalar '"', .scalar c, .scalar '"'] := hplain
    have hkey : quote false (Text.of "challenge_id") = Text.of "\"challenge_id\"" := by decide
    simp only [sortedCore, challenge, writeDict, List.map_cons, hquote, hkey, commas,
      List.append_assoc]
    exact ⟨_, rfl⟩
  split at htext
  · rename_i t hencode
    obtain rfl := Except.ok.inj htext
    rw [Text.encode_eq_some_iff.mp hencode, Text.of, List.map_eq_append_iff] at hrest
    obtain ⟨first, later, htoList, hfirst, -⟩ := hrest
    have hsame := List.map_injective_iff.mpr (fun _ _ => CodePoint.scalar.inj) hfirst
    rw [hsame] at htoList
    refine prefix_beginnings (htoList ▸ List.prefix_append _ _) ?_
    rw [List.length_append, List.length_singleton]
    decide
  · cases htext

/-- Entries for different challenges. -/
structure Apart (made : List (Char × Dict)) : Prop where
  nodup : (made.map (·.1)).Nodup
  madeFor : ∀ p ∈ made, Plain p.1 ∧ MadeFor p.1 p.2

variable {made part : List (Char × Dict)}

def entriesFor (made : List (Char × Dict)) : List PyValue := made.map fun p => .dict p.2

theorem mem_of_hashed {text : String} (hpart : part ⊆ made)
    (h : text ∈ HashedTexts (entriesFor part)) : ∃ p ∈ made,
      (PyValue.dict (core p.2)).bytes { ensureAscii := false } = .ok text := by
  obtain ⟨fields, hmem, htext⟩ := h
  obtain ⟨p, hp, heq⟩ := List.mem_map.mp hmem
  obtain rfl := PyValue.dict.inj heq
  exact ⟨p, hpart hp, htext⟩

theorem Apart.injOn (h : Apart made) (hpart : part ⊆ made) : Set.InjOn beginnings.sha256
    (HashedTexts (entriesFor part) ∪ HashedTexts (entriesFor made)) := by
  intro text htext text' htext' hsame
  obtain ⟨p, hp, hbytes⟩ :=
    htext.elim (mem_of_hashed hpart) (mem_of_hashed (List.Subset.refl _))
  obtain ⟨p', hp', hbytes'⟩ :=
    htext'.elim (mem_of_hashed hpart) (mem_of_hashed (List.Subset.refl _))
  have hshown := digest_of_madeFor (h.madeFor p hp).1 (h.madeFor p hp).2 hbytes
  have hshown' := digest_of_madeFor (h.madeFor p' hp').1 (h.madeFor p' hp').2 hbytes'
  rw [← hsame] at hshown'
  have hchar : p.1 = p'.1 := by
    have hstart := List.prefix_of_prefix_length_le hshown hshown' (by simp)
    exact (List.cons.inj (List.append_cancel_left (hstart.eq_of_length (by simp)))).1
  obtain rfl := List.inj_on_of_nodup_map h.nodup hp hp' hchar
  exact Except.ok.inj (hbytes.symm.trans hbytes')

theorem Apart.ne_genesis (h : Apart made) (hpart : part ⊆ made) {text : String}
    (htext : text ∈ HashedTexts (entriesFor part)) : beginnings.sha256 text ≠ GENESIS := by
  obtain ⟨p, hp, hbytes⟩ := mem_of_hashed hpart htext
  have hshown := digest_of_madeFor (h.madeFor p hp).1 (h.madeFor p hp).2 hbytes
  intro heq
  obtain ⟨rest, hrest⟩ := heq ▸ hshown
  have hzero : GENESIS.toList.head? = some '0' := by decide
  have hbrace : (opening ++ [p.1] ++ rest).head? = some '\x7b' := rfl
  rw [← hrest, hbrace] at hzero
  exact absurd hzero (by decide)

theorem Apart.floatsRead (h : Apart made) (hpart : part ⊆ made) :
    FloatsRead (entriesFor part) := by
  rintro fields hmem j hj repr hrepr
  obtain ⟨p, hp, heq⟩ := List.mem_map.mp hmem
  obtain rfl := PyValue.dict.inj heq
  obtain ⟨entries, prev, hash, hmade⟩ := (h.madeFor p (hpart hp)).2
  rw [hmade, core_withHash] at hj
  obtain rfl := Except.ok.inj hj
  cases hrepr

/-- One challenge more. -/
theorem exists_append {file : File} {c : Char} (hfile : file = none ∨ Accepted file)
    (hfresh : Fresh file [.scalar c]) : ∃ fields, MadeFor c fields ∧
      Accepted (some (.document (.dict (ledger (entriesOf file ++ [.dict fields]))))) := by
  have hname : Text.Encodable [.scalar c] := fun d hd => by
    rw [List.mem_singleton.mp hd]
    rfl
  have hargs : (challenge c).Encodable :=
    ⟨hname, hname, Text.encodable_of _, Text.encodable_of _⟩
  obtain ⟨⟨entry, payload⟩, hprepare⟩ := prepare_returns length_beginnings hfile hargs 0
  have haccepted := (accepted_prepared_iff length_beginnings hprepare).mpr hfresh
  obtain ⟨-, prev, hash, hprev, -, rfl, rfl⟩ := prepare_eq_ok hprepare
  obtain ⟨scan, hscan, hclean⟩ := clean_entries hfile
  obtain ⟨hprevious, -, -⟩ := scanAll_clean length_beginnings hscan hclean
  obtain rfl := Except.ok.inj (hprevious.symm.trans hprev)
  exact ⟨_, ⟨_, _, _, rfl⟩, haccepted⟩

theorem manifest_of_madeFor {c : Char} {fields : Dict} (h : MadeFor c fields) :
    manifest (.dict fields) = [[.scalar c]] := by
  obtain ⟨entries, prev, hash, rfl⟩ := h
  rfl

/-- The head of two entries, in a ledger of three. -/
theorem head_anchors_second : ∃ first second third : Dict,
    Accepted (some (.document (.dict (ledger [.dict first, .dict second])))) ∧
    Accepted (some (.document (.dict (ledger [.dict first, .dict second, .dict third])))) ∧
    List.Forall₂ SameCore
      (entriesOf (some (.document (.dict (ledger [.dict first, .dict second])))))
      ([.dict first] ++ [.dict second]) := by
  obtain ⟨first, hfirst, haccepted⟩ := exists_append (c := 'a') (.inl rfl) (fresh_none _)
  obtain ⟨second, hsecond, haccepted⟩ := exists_append (c := 'b') (.inr haccepted) (by
    refine List.forall_mem_singleton.mpr ?_
    rw [manifest_of_madeFor hfirst]
    decide)
  obtain ⟨third, hthird, haccepted'⟩ := exists_append (c := 'c') (.inr haccepted) (by
    refine List.forall_mem_cons.mpr ⟨?_, List.forall_mem_singleton.mpr ?_⟩
    · rw [manifest_of_madeFor hfirst]
      decide
    · rw [manifest_of_madeFor hsecond]
      decide)
  have hnames : ['a', 'b', 'c'].Nodup := by decide
  have happart : Apart [('a', first), ('b', second), ('c', third)] :=
    ⟨hnames, List.forall_mem_cons.mpr ⟨⟨rfl, hfirst⟩, List.forall_mem_cons.mpr
      ⟨⟨rfl, hsecond⟩, List.forall_mem_singleton.mpr ⟨rfl, hthird⟩⟩⟩⟩
  have hpart : [('a', first), ('b', second)] ⊆ [('a', first), ('b', second), ('c', third)] := by
    simp
  obtain ⟨report, hreport, hverified⟩ := id haccepted
  obtain ⟨scan, hscan, hclean, hhead⟩ := scan_of_verified hreport hverified
  obtain ⟨hprev, hgoesOn⟩ := scanAll_chain length_beginnings hscan hclean
  obtain ⟨fields, hash, hlast⟩ := hgoesOn [.dict first] (.dict second) [] rfl
  obtain rfl := PyValue.dict.inj hlast.entry_eq
  have hown : dictGet second "entry_hash" = .str scan.prev := by
    rw [hlast.own, hprev]
    exact congrArg PyValue.str (hlast.nextHash_eq _).symm
  refine ⟨first, second, third, haccepted, haccepted', ?_⟩
  refine head_anchors length_beginnings ?_ ?_ ?_ ?_ hreport hverified hhead haccepted' rfl hown
  · exact happart.injOn hpart
  · exact fun text htext => htext.elim (happart.ne_genesis hpart)
      (happart.ne_genesis (List.Subset.refl _))
  · exact happart.floatsRead hpart
  · exact happart.floatsRead (List.Subset.refl _)

end Example

end Kripto.Release
