/-
# The migrations that are pending

`scripts/database_migration_guard.py`, up to `compare_release_migrations`: what the version files
of two releases say of their revisions, and what is pending between them.  A graph may have
branches, roots and cycles of any kind, as long as just one revision is no parent.

* `pathToAncestor_returns`: the climb from one revision to another comes to an end;
* `pathToAncestor_eq_ok_iff`: it returns the line of descent that does not come back to where it
  began;
* `pending_exact`: so `pending` is that line, or `compare_release_migrations` raises.
-/
import Kripto.Effect.Lineage
import Kripto.Effect.Outcome
import Kripto.Python.Json
import Mathlib.Data.List.Perm.Subperm

namespace Kripto.Deploy.MigrationGraph

open Effect Python

/-! ## 1. `re.search` in a version file -/

/-- `\s*` -/
def skipSpace (t : Text) : Text := t.dropWhile fun c => c.char?.any Text.isSpace

/-- What stands behind a word. -/
def behindWord (word : String) (t : Text) : Option Text :=
  if (Text.of word).isPrefixOf t then some (t.drop word.length) else none

/-- `name\s*=\s*` -/
def behindAssignment (name : String) (t : Text) : Option Text :=
  (behindWord name t).bind fun t => (behindWord "=" (skipSpace t)).map skipSpace

def isQuote (c : CodePoint) : Bool := c = .scalar '\x27' || c = .scalar '"'

/-- `['"]([^'"]+)`, and what stands behind it. -/
def quotedRun : Text → Option (Text × Text)
  | [] => none
  | c :: t =>
    let run := t.takeWhile fun c => !isQuote c
    if isQuote c = true ∧ run ≠ [] then some (run, t.drop run.length) else none

/-- The places where `^` matches. -/
def lineStarts (t : Text) : List Text :=
  t :: t.tails.filterMap fun
    | .scalar '\n' :: rest => some rest
    | _ => none

def search {α : Type} (pattern : Text → Option α) (t : Text) : Option α :=
  (lineStarts t).findSome? pattern

/-- `^revision\s*=\s*['"]([^'"]+)` -/
def revisionAt (t : Text) : Option Text :=
  (behindAssignment "revision" t).bind fun t => (quotedRun t).map Prod.fst

/-- `^down_revision\s*=\s*(?:['"]([^'"]+)['"]|None)` -/
def downRevisionAt (t : Text) : Option (Option Text) :=
  (behindAssignment "down_revision" t).bind fun t =>
    match quotedRun t with
    | some (run, _ :: _) => some (some run)
    | _ => (behindWord "None" t).map fun _ => none

/-! ## 2. `_migration_graph` -/

inductive Exc
  | runtimeError (msg : Text)
  | unicodeDecodeError
  | attributeError
  | typeError

def raiseError {α : Type} (msg : String) (details : Text := []) : Except Exc α :=
  .error (.runtimeError (Text.of msg ++ details))

inductive VersionFile
  | unsafePath
  | undecodable
  | source (text : Text)

/-- Each revision with the one below it. -/
abbrev Revisions : Type := List (Text × Option Text)

/-- `str` of a list of texts. -/
class PyRepr where
  list : List Text → Text

namespace Revisions

variable (revisions : Revisions)

def names : List Text := revisions.map Prod.fst

/-- The parent of a revision, if it has one. -/
def parent (r : Text) : Option Text := (revisions.lookup r).join

end Revisions

def readVersion (revisions : Revisions) : VersionFile → Except Exc Revisions
  | .unsafePath => raiseError "MIGRATION_VERSION_FILE_UNSAFE"
  | .undecodable => .error .unicodeDecodeError
  | .source text =>
    match search revisionAt text with
    | none => .ok revisions
    | some revision =>
      if revision ∈ revisions.names then raiseError "MIGRATION_DUPLICATE_REVISION:" revision
      else .ok (revisions ++ [(revision, (search downRevisionAt text).join)])

def checkParent (revisions : Revisions) (e : Text × Option Text) : Except Exc Unit :=
  match e.2 with
  | none => .ok ()
  | some down =>
    if down ∉ revisions.names then
      raiseError "MIGRATION_PARENT_MISSING:" (e.1 ++ Text.of ":" ++ down)
    else .ok ()

def migrationGraph [PyRepr] (versions : Option (List VersionFile)) :
    Except Exc (Revisions × Text) :=
  match versions with
  | none => raiseError "MIGRATION_VERSIONS_UNSAFE"
  | some files => do
    let revisions ← files.foldlM readVersion []
    if revisions = [] then raiseError "MIGRATION_REVISIONS_MISSING"
    else
      let referenced := revisions.filterMap Prod.snd
      let heads := (revisions.names.filter (· ∉ referenced)).insertionSort Text.le
      match heads with
      | [head] => do
        revisions.forM (checkParent revisions)
        return (revisions, head)
      | _ => raiseError "MIGRATION_HEAD_AMBIGUOUS:" (PyRepr.list heads)

/-! ## 3. `_load_contract` -/

/-- The contract: its digest, and what `json.loads` makes of it or the name of what it raises. -/
inductive ContractFile
  | unsafePath
  | file (sha256 : Text) (payload : Except Text PyValue)

/-- `v in {True, False}` -/
def isTruthValue : PyValue → Except Exc Bool
  | .bool _ => .ok true
  | .int n => .ok (n = 0 || n = 1)
  | .float repr => .ok (repr ∈ ["0.0", "-0.0", "1.0"])
  | .list _ | .dict _ => .error .typeError
  | _ => .ok false

/-- `v in {"restore_only", "restore_or_forward", "forward_only"}` -/
def isRollbackStrategy : PyValue → Except Exc Bool
  | .str s => .ok (s ∈ ["restore_only", "restore_or_forward", "forward_only"].map Text.of)
  | .list _ | .dict _ => .error .typeError
  | _ => .ok false

/-- `v == down` -/
def isDown (v : PyValue) : Option Text → Bool
  | none => (v matches .none)
  | some down => v.isText down

def checkEntry (entries : Dict) (e : Text × Option Text) : Except Exc Unit :=
  match (entries.lookup (.str e.1)).getD .none with
  | .dict item => do
    if ¬ isDown (dictGet item "down_revision") e.2 then
      raiseError "MIGRATION_COMPATIBILITY_PARENT_MISMATCH:" e.1
    else if ¬ (← isTruthValue (dictGet item "previous_release_compatible")) then
      raiseError "MIGRATION_COMPATIBILITY_PREVIOUS_RELEASE_INVALID:" e.1
    else if ¬ (← isTruthValue (dictGet item "requires_backup")) then
      raiseError "MIGRATION_COMPATIBILITY_BACKUP_POLICY_INVALID:" e.1
    else if ¬ (← isRollbackStrategy (dictGet item "rollback_strategy")) then
      raiseError "MIGRATION_COMPATIBILITY_ROLLBACK_STRATEGY_INVALID:" e.1
    else return ()
  | _ => raiseError "MIGRATION_COMPATIBILITY_ENTRY_MISSING:" e.1

/-- The entries of the contract, and its digest. -/
def loadContract (contract : ContractFile) (revisions : Revisions) : Except Exc (Dict × Text) :=
  match contract with
  | .unsafePath => raiseError "MIGRATION_COMPATIBILITY_CONTRACT_MISSING_OR_UNSAFE"
  | .file _ (.error exc) => raiseError "MIGRATION_COMPATIBILITY_CONTRACT_INVALID:" exc
  | .file sha256 (.ok (.dict payload)) =>
    if ¬ (dictGet payload "schema_version").isText (Text.of "1.0") ∨
        ¬ (dictGet payload "classification").isText
          (Text.of "DATABASE_MIGRATION_COMPATIBILITY_CONTRACT") then
      raiseError "MIGRATION_COMPATIBILITY_CONTRACT_CLASSIFICATION_INVALID"
    else match dictGet payload "migrations" with
      | .dict entries => do
        revisions.forM (checkEntry entries)
        return (entries, sha256)
      | _ => raiseError "MIGRATION_COMPATIBILITY_ENTRIES_INVALID"
  | .file _ (.ok _) => .error .attributeError

/-! ## 4. `compare_release_migrations` -/

/-- What is in a release: its version files, by name, and its contract. -/
structure Release where
  versions : Option (List VersionFile)
  contract : ContractFile

/-- Of the contract, only its entries are kept. -/
structure MigrationState where
  head : Text
  revisions : Revisions
  entries : Dict
  contractSha256 : Text

/-- `contract["migrations"][r][name] is True`, for a revision that the contract has been checked
for. -/
def MigrationState.isTrue (state : MigrationState) (name : String) (r : Text) : Bool :=
  match (state.entries.lookup (.str r)).getD .none with
  | .dict item => (dictGet item name matches .bool true)
  | _ => false

def migrationState [PyRepr] (root : Release) : Except Exc MigrationState := do
  let (revisions, head) ← migrationGraph root.versions
  let (entries, contractSha256) ← loadContract root.contract revisions
  return { head, revisions, entries, contractSha256 }

/-- The loop of `_path_to_ancestor`; `none` if it has not come to an end. -/
def climbLoop (revisions : Revisions) (ancestor descendant : Text) :
    ℕ → Text → List Text → List Text → Option (Except Exc (List Text))
  | 0, _, _, _ => none
  | fuel + 1, cur, reverse, seen =>
    if cur = ancestor then some (.ok reverse.reverse)
    else if cur ∈ seen then some (raiseError "MIGRATION_LINEAGE_INVALID")
    else match revisions.lookup cur with
      | none => some (raiseError "MIGRATION_LINEAGE_INVALID")
      | some none => some (raiseError "MIGRATION_NOT_DESCENDANT:"
          (ancestor ++ Text.of ":" ++ descendant))
      | some (some parent) =>
        climbLoop revisions ancestor descendant fuel parent (reverse ++ [cur]) (cur :: seen)

def pathToAncestor (fuel : ℕ) (revisions : Revisions) (ancestor descendant : Text) :
    Option (Except Exc (List Text)) :=
  climbLoop revisions ancestor descendant fuel descendant [] []

structure Comparison where
  required : Bool
  fromHead : Text
  toHead : Text
  pending : List Text
  previousReleaseCompatible : Bool
  requiresBackup : Bool
  targetContractSha256 : Text

section Comparing

variable [PyRepr]

/-- What is made of the path. -/
def comparisonOf (before after : MigrationState) (pending : List Text) : Except Exc Comparison :=
  let compat := pending.all (after.isTrue "previous_release_compatible")
  let backup := pending.any (after.isTrue "requires_backup")
  if ¬ compat then raiseError "MIGRATION_PREVIOUS_RELEASE_INCOMPATIBLE:" (PyRepr.list pending)
  else .ok ⟨true, before.head, after.head, pending, compat, backup, after.contractSha256⟩

def compareStates (fuel : ℕ) (before after : MigrationState) : Option (Except Exc Comparison) :=
  if before.head = after.head then
    some (.ok ⟨false, before.head, after.head, [], true, false, after.contractSha256⟩)
  else if before.head ∉ after.revisions.names then
    some (raiseError "MIGRATION_ACTIVE_HEAD_NOT_IN_CANDIDATE")
  else (pathToAncestor fuel after.revisions before.head after.head).map fun path =>
    path >>= comparisonOf before after

def compareReleaseMigrations (fuel : ℕ) (active candidate : Release) :
    Option (Except Exc Comparison) :=
  match (do return (← migrationState active, ← migrationState candidate) : Except Exc _) with
  | .error e => some (.error e)
  | .ok (before, after) => compareStates fuel before after

end Comparing

/-! ## 5. The climb -/

namespace Revisions

variable {revisions : Revisions} {r d : Text}

theorem parent_eq_some_iff : revisions.parent r = some d ↔ revisions.lookup r = some (some d) := by
  unfold parent
  cases revisions.lookup r <;> simp

theorem mem_names_of_lookup {down : Option Text} (h : revisions.lookup r = some down) :
    r ∈ revisions.names :=
  List.mem_map_of_mem (mem_of_lookup h)

theorem length_le {seen : List Text} (hnodup : seen.Nodup) (h : seen ⊆ revisions.names) :
    seen.length ≤ revisions.length := by
  have hle := (List.subperm_of_subset hnodup h).length_le
  rwa [names, List.length_map] at hle

end Revisions

section Climbing

variable {revisions : Revisions} {ancestor descendant cur : Text} {reverse seen l path : List Text}
  {fuel : ℕ}

/-- The revisions that have been passed are different, and so it takes one turn for each that has
not, and one more. -/
theorem climbLoop_returns (revisions : Revisions) (ancestor descendant : Text) :
    ∀ (n : ℕ) (cur : Text) (reverse seen : List Text), seen.Nodup → seen ⊆ revisions.names →
      revisions.length < n + seen.length →
      ∃ outcome, ∀ fuel, revisions.length < fuel + seen.length →
        climbLoop revisions ancestor descendant fuel cur reverse seen = some outcome := by
  intro n
  induction n with
  | zero =>
    intro cur reverse seen hnodup hnames hfuel
    have hlength := Revisions.length_le hnodup hnames
    omega
  | succ n ih =>
    intro cur reverse seen hnodup hnames hfuel
    have hlength := Revisions.length_le hnodup hnames
    -- each number of turns that is enough is at least one
    have hsucc : ∀ {outcome : Except Exc (List Text)},
        (∀ fuel, revisions.length < fuel + 1 + seen.length →
          climbLoop revisions ancestor descendant (fuel + 1) cur reverse seen = some outcome) →
        ∀ fuel, revisions.length < fuel + seen.length →
          climbLoop revisions ancestor descendant fuel cur reverse seen = some outcome := by
      intro outcome h fuel hfuel
      obtain ⟨fuel, rfl⟩ := Nat.exists_eq_succ_of_ne_zero (n := fuel) (by omega)
      exact h fuel hfuel
    by_cases hcur : cur = ancestor
    · exact ⟨_, hsucc fun fuel _ => by rw [climbLoop, if_pos hcur]⟩
    by_cases hseen : cur ∈ seen
    · exact ⟨_, hsucc fun fuel _ => by rw [climbLoop, if_neg hcur, if_pos hseen]⟩
    cases hlookup : revisions.lookup cur with
    | none =>
      exact ⟨_, hsucc fun fuel _ => by rw [climbLoop, if_neg hcur, if_neg hseen, hlookup]⟩
    | some down =>
      cases down with
      | none =>
        exact ⟨_, hsucc fun fuel _ => by rw [climbLoop, if_neg hcur, if_neg hseen, hlookup]⟩
      | some parent =>
        obtain ⟨outcome, houtcome⟩ := ih parent (reverse ++ [cur]) (cur :: seen)
          (List.nodup_cons.mpr ⟨hseen, hnodup⟩)
          (List.cons_subset.mpr ⟨Revisions.mem_names_of_lookup hlookup, hnames⟩)
          (by rw [List.length_cons]; omega)
        refine ⟨outcome, hsucc fun fuel hfuel => ?_⟩
        rw [climbLoop, if_neg hcur, if_neg hseen, hlookup]
        exact houtcome fuel (by rw [List.length_cons]; omega)

/-- **The climb comes to an end**, whatever the graph. -/
theorem pathToAncestor_returns (revisions : Revisions) (ancestor descendant : Text) :
    ∃ outcome, ∀ fuel, revisions.length < fuel →
      pathToAncestor fuel revisions ancestor descendant = some outcome :=
  climbLoop_returns revisions ancestor descendant (revisions.length + 1) descendant [] []
    List.nodup_nil (List.nil_subset _) (by rw [List.length_nil]; omega)

/-- What it returns leads to the ancestor, and stops there. -/
theorem climb_of_climbLoop
    (h : climbLoop revisions ancestor descendant fuel cur reverse seen = some (.ok path)) :
    ∃ l, Climb revisions.parent cur l ancestor ∧ ancestor ∉ l ∧ path = (reverse ++ l).reverse := by
  induction fuel generalizing cur reverse seen with
  | zero => cases h
  | succ fuel ih =>
    rw [climbLoop] at h
    split_ifs at h with hcur hseen
    · subst hcur
      cases h
      exact ⟨[], .here cur, List.not_mem_nil, by rw [List.append_nil]⟩
    · cases h
    · split at h
      · cases h
      · cases h
      · next parent hlookup =>
        obtain ⟨l, hclimb, hl, rfl⟩ := ih h
        exact ⟨cur :: l, .up (Revisions.parent_eq_some_iff.mpr hlookup) hclimb,
          List.not_mem_cons_of_ne_of_not_mem (Ne.symm hcur) hl,
          by rw [List.append_assoc, List.singleton_append]⟩

/-- If there is a way to the ancestor that stops there, that is what it returns. -/
theorem climbLoop_of_climb (h : Climb revisions.parent cur l ancestor) (hl : ancestor ∉ l)
    (hseen : ∀ r ∈ l, r ∉ seen) (hfuel : l.length < fuel) :
    climbLoop revisions ancestor descendant fuel cur reverse seen =
      some (.ok (reverse ++ l).reverse) := by
  induction h generalizing fuel reverse seen with
  | here a =>
    obtain ⟨fuel, rfl⟩ := Nat.exists_eq_succ_of_ne_zero (n := fuel) (by omega)
    rw [climbLoop, if_pos rfl, List.append_nil]
  | @up a cur parent l hparent hrest ih =>
    obtain ⟨fuel, rfl⟩ := Nat.exists_eq_succ_of_ne_zero (n := fuel) (by omega)
    have hnodup := (Climb.up hparent hrest).nodup hl
    rw [List.nodup_cons] at hnodup
    rw [List.mem_cons, not_or] at hl
    rw [List.forall_mem_cons] at hseen
    rw [List.length_cons] at hfuel
    rw [climbLoop, if_neg (Ne.symm hl.1), if_neg hseen.1,
      Revisions.parent_eq_some_iff.mp hparent]
    refine (ih hl.2 (fun r hr => ?_) (by omega)).trans ?_
    · refine List.not_mem_cons_of_ne_of_not_mem ?_ (hseen.2 r hr)
      rintro rfl
      exact hnodup.1 hr
    · rw [List.append_assoc, List.singleton_append]

end Climbing

/-! ## 6. What is pending -/

section Pending

variable {before after : MigrationState} {path rs : List Text}

/-- The line from the active head down to the head of the candidate that does not come back to the
active head. -/
structure IsPending (before after : MigrationState) (rs : List Text) : Prop where
  descends : Descends after.revisions.parent before.head after.head rs
  nodup : rs.Nodup
  leaves : before.head ∉ rs

theorem isPending_iff : IsPending before after rs ↔
    Climb after.revisions.parent after.head rs.reverse before.head ∧ before.head ∉ rs ∧
      rs ≠ [] := by
  constructor
  · rintro ⟨hdescends, -, hleaves⟩
    obtain ⟨hclimb, hne⟩ := descends_iff.mp hdescends
    exact ⟨hclimb, hleaves, hne⟩
  · rintro ⟨hclimb, hleaves, hne⟩
    have hnodup := hclimb.nodup fun hmem => hleaves (List.mem_reverse.mp hmem)
    exact ⟨descends_iff.mpr ⟨hclimb, hne⟩, List.nodup_reverse.mp hnodup, hleaves⟩

/-- There is at most one. -/
theorem IsPending.unique {rs' : List Text} (h : IsPending before after rs)
    (h' : IsPending before after rs') : rs = rs' := by
  obtain ⟨hclimb, hleaves, -⟩ := isPending_iff.mp h
  obtain ⟨hclimb', hleaves', -⟩ := isPending_iff.mp h'
  refine List.reverse_injective (hclimb.unique hclimb' ?_ ?_)
  · exact fun hmem => hleaves (List.mem_reverse.mp hmem)
  · exact fun hmem => hleaves' (List.mem_reverse.mp hmem)

/-- **The path between different heads** is the line that is pending. -/
theorem pathToAncestor_eq_ok_iff {fuel : ℕ} (hheads : before.head ≠ after.head)
    (hfuel : after.revisions.length < fuel) :
    pathToAncestor fuel after.revisions before.head after.head = some (.ok path) ↔
      IsPending before after path := by
  rw [isPending_iff]
  constructor
  · intro h
    obtain ⟨l, hclimb, hl, hpath⟩ := climb_of_climbLoop h
    rw [List.nil_append] at hpath
    subst hpath
    rw [List.reverse_reverse, List.mem_reverse, Ne, List.reverse_eq_nil_iff]
    refine ⟨hclimb, hl, ?_⟩
    rintro rfl
    exact hheads hclimb.eq_of_nil.symm
  · rintro ⟨hclimb, hleaves, -⟩
    have hleaves' : before.head ∉ path.reverse := fun hmem => hleaves (List.mem_reverse.mp hmem)
    have hlength : path.reverse.length ≤ after.revisions.length := by
      refine Revisions.length_le (hclimb.nodup hleaves') fun r hr => ?_
      obtain ⟨d, hd⟩ := hclimb.parent_of_mem hr
      exact Revisions.mem_names_of_lookup (Revisions.parent_eq_some_iff.mp hd)
    have h : pathToAncestor fuel after.revisions before.head after.head =
        some (.ok ([] ++ path.reverse).reverse) :=
      climbLoop_of_climb hclimb hleaves' (fun _ _ => List.not_mem_nil) (by omega)
    rwa [List.nil_append, List.reverse_reverse] at h

variable [PyRepr] {root : Release} {state : MigrationState} {r d : Text}

omit [PyRepr] in
theorem mem_of_checkParent {revisions : Revisions}
    (h : checkParent revisions (r, some d) = .ok ()) : d ∈ revisions.names := by
  dsimp only [checkParent] at h
  split_ifs at h with hd
  · exact hd
  · cases h

theorem migrationGraph_parent {versions : Option (List VersionFile)} {revisions : Revisions}
    {head : Text} (h : migrationGraph versions = .ok (revisions, head))
    (hr : revisions.parent r = some d) : d ∈ revisions.names := by
  cases versions with
  | none => cases h
  | some files =>
    obtain ⟨revs, -, h⟩ := bind_eq_ok_iff.mp h
    split_ifs at h
    · cases h
    dsimp only at h
    split at h
    · obtain ⟨⟨⟩, hparents, h⟩ := bind_eq_ok_iff.mp h
      cases h
      have hcheck := forM_eq_ok_iff.mp hparents _
        (mem_of_lookup (Revisions.parent_eq_some_iff.mp hr))
      exact mem_of_checkParent hcheck
    · cases h

theorem migrationState_parent (h : migrationState root = .ok state)
    (hr : state.revisions.parent r = some d) : d ∈ state.revisions.names := by
  obtain ⟨⟨revisions, head⟩, hgraph, h⟩ := bind_eq_ok_iff.mp h
  obtain ⟨⟨entries, sha256⟩, -, h⟩ := bind_eq_ok_iff.mp h
  cases h
  exact migrationGraph_parent hgraph hr

/-- A line that is pending begins at the active head, which the candidate knows then. -/
theorem IsPending.head_mem (h : IsPending before after rs)
    (hafter : migrationState root = .ok after) : before.head ∈ after.revisions.names := by
  obtain ⟨-, -, hne⟩ := isPending_iff.mp h
  obtain ⟨r, rs, rfl⟩ := List.exists_cons_of_ne_nil hne
  have hchain := h.descends.chain
  rw [List.isChain_cons_cons] at hchain
  exact migrationState_parent hafter hchain.1

theorem comparisonOf_eq_ok_iff {c : Comparison} : comparisonOf before after path = .ok c ↔
    (∀ r ∈ path, after.isTrue "previous_release_compatible" r = true) ∧
      c = ⟨true, before.head, after.head, path, true,
        path.any (after.isTrue "requires_backup"), after.contractSha256⟩ := by
  rw [← List.all_eq_true, comparisonOf]
  cases path.all (after.isTrue "previous_release_compatible") with
  | false => simp [raiseError]
  | true => simp [eq_comm]

theorem compareReleaseMigrations_eq {active candidate : Release}
    (hbefore : migrationState active = .ok before) (hafter : migrationState candidate = .ok after)
    (fuel : ℕ) :
    compareReleaseMigrations fuel active candidate = compareStates fuel before after := by
  simp only [compareReleaseMigrations, hbefore, hafter, ok_bind, pure_eq_ok]

end Pending

/-! ## 7. The answer -/

/-- If migrations are required, `pending` is the only line from the active head to that of the
candidate that does not come back to the active head, and each of its revisions is marked as
compatible.  None are required only if the heads are the same, and an exception is raised only if
they are different and no such line is compatible. -/
def IsAnswer (before after : MigrationState) : Except Exc Comparison → Prop
  | .ok c =>
    if c.required then
      (∀ rs, IsPending before after rs ↔ rs = c.pending) ∧
        ∀ r ∈ c.pending, after.isTrue "previous_release_compatible" r = true
    else before.head = after.head
  | .error _ => before.head ≠ after.head ∧ ∀ rs, IsPending before after rs →
      ¬ ∀ r ∈ rs, after.isTrue "previous_release_compatible" r = true

/-- `str` of texts that need no escape. -/
@[reducible] def plainRepr : PyRepr where
  list texts := Text.of "[" ++ commas (texts.map fun t => Text.of "'" ++ t ++ Text.of "'") ++
    Text.of "]"

def versionFile (revision : String) (down : Option String) : VersionFile :=
  .source (Text.of ("revision = '" ++ revision ++ "'\ndown_revision = " ++
    down.elim "None" fun down => "'" ++ down ++ "'"))

def contractEntry (down : Option String) : PyValue :=
  .dict [(.str (Text.of "down_revision"), down.elim .none fun down => .str (Text.of down)),
    (.str (Text.of "previous_release_compatible"), .bool true),
    (.str (Text.of "requires_backup"), .bool true),
    (.str (Text.of "rollback_strategy"), .str (Text.of "restore_only"))]

/-- A release with these revisions, each marked as compatible. -/
def compatibleRelease (revisions : List (String × Option String)) : Release where
  versions := some (revisions.map fun e => versionFile e.1 e.2)
  contract := .file (Text.of "00") (.ok (.dict [
    (.str (Text.of "schema_version"), .str (Text.of "1.0")),
    (.str (Text.of "classification"), .str (Text.of "DATABASE_MIGRATION_COMPATIBILITY_CONTRACT")),
    (.str (Text.of "migrations"),
      .dict (revisions.map fun e => (.str (Text.of e.1), contractEntry e.2)))]))

/-- What `migration_state` finds in it. -/
def compatibleState (revisions : List (String × Option String)) (head : String) :
    MigrationState where
  head := Text.of head
  revisions := revisions.map fun e => (Text.of e.1, e.2.map Text.of)
  entries := revisions.map fun e => (.str (Text.of e.1), contractEntry e.2)
  contractSha256 := Text.of "00"

def activeVersions : List (String × Option String) := [("a", none)]

def nextVersions : List (String × Option String) := [("a", none), ("b", some "a"), ("h", some "b")]

/-- The active head on a cycle. -/
def cyclicVersions : List (String × Option String) :=
  [("h", some "a"), ("a", some "x"), ("x", some "a")]

theorem migrationState_active : @migrationState plainRepr (compatibleRelease activeVersions) =
    .ok (compatibleState activeVersions "a") := by rfl

section Answer

variable [PyRepr] {before after : MigrationState}

/-- **`pending` is exact.**  The comparison of two releases ends, and its answer is right. -/
theorem pending_exact {active candidate : Release} (hbefore : migrationState active = .ok before)
    (hafter : migrationState candidate = .ok after) :
    ∃ outcome, IsAnswer before after outcome ∧ ∀ fuel, after.revisions.length < fuel →
      compareReleaseMigrations fuel active candidate = some outcome := by
  simp only [compareReleaseMigrations_eq hbefore hafter, compareStates]
  by_cases hheads : before.head = after.head
  · exact ⟨.ok ⟨false, before.head, after.head, [], true, false, after.contractSha256⟩,
      hheads, fun fuel _ => by rw [if_pos hheads]⟩
  by_cases hnames : before.head ∉ after.revisions.names
  · refine ⟨.error _, ⟨hheads, ?_⟩, fun fuel _ => by rw [if_neg hheads, if_pos hnames]; rfl⟩
    exact fun rs hrs => absurd (hrs.head_mem hafter) hnames
  obtain ⟨outcome, houtcome⟩ := pathToAncestor_returns after.revisions before.head after.head
  have hpath : ∀ path, outcome = .ok path ↔ IsPending before after path := by
    intro path
    rw [← pathToAncestor_eq_ok_iff hheads (Nat.lt_succ_self _), houtcome _ (Nat.lt_succ_self _),
      Option.some.injEq]
  refine ⟨outcome >>= comparisonOf before after, ?_, fun fuel hfuel => by
    rw [if_neg hheads, if_neg hnames, houtcome fuel hfuel, Option.map_some]⟩
  cases houtcome' : outcome >>= comparisonOf before after with
  | ok c =>
    obtain ⟨path, hok, hc⟩ := bind_eq_ok_iff.mp houtcome'
    obtain ⟨hcompatible, rfl⟩ := comparisonOf_eq_ok_iff.mp hc
    have hpending := (hpath path).mp hok
    refine ⟨fun rs => ⟨fun hrs => hrs.unique hpending, ?_⟩, hcompatible⟩
    rintro rfl
    exact hpending
  | error e =>
    refine ⟨hheads, fun rs hrs hcompatible => ?_⟩
    rw [(hpath rs).mpr hrs, ok_bind,
      comparisonOf_eq_ok_iff.mpr ⟨hcompatible, rfl⟩] at houtcome'
    cases houtcome'

end Answer

theorem pending_exact_next :
    ∃ outcome, IsAnswer (compatibleState activeVersions "a") (compatibleState nextVersions "h")
        outcome ∧ ∀ fuel, 3 < fuel →
      @compareReleaseMigrations plainRepr fuel (compatibleRelease activeVersions)
        (compatibleRelease nextVersions) = some outcome :=
  @pending_exact plainRepr _ _ _ _ migrationState_active rfl

/-- **A line that comes back to the active head** is another one, without repetition. -/
theorem pending_not_unique : ∃ before after c,
    @migrationState plainRepr (compatibleRelease activeVersions) = .ok before ∧
    @migrationState plainRepr (compatibleRelease cyclicVersions) = .ok after ∧
    (@compareReleaseMigrations plainRepr 4 (compatibleRelease activeVersions)
      (compatibleRelease cyclicVersions) = some (.ok c)) ∧
    c.required = true ∧ c.pending = [Text.of "h"] ∧
    ∀ rs ∈ [[Text.of "h"], [Text.of "x", Text.of "a", Text.of "h"]],
      Descends after.revisions.parent before.head after.head rs ∧ rs.Nodup ∧
        ∀ r ∈ rs, after.isTrue "previous_release_compatible" r = true := by
  have hcyclic : @migrationState plainRepr (compatibleRelease cyclicVersions) =
      .ok (compatibleState cyclicVersions "h") := by rfl
  refine ⟨compatibleState activeVersions "a", compatibleState cyclicVersions "h",
    ⟨true, Text.of "a", Text.of "h", [Text.of "h"], true, true, Text.of "00"⟩,
    migrationState_active, hcyclic, ?_, rfl, rfl, ?_⟩
  · rw [@compareReleaseMigrations_eq _ _ plainRepr _ _ migrationState_active hcyclic]
    rfl
  intro rs hrs
  rcases List.mem_cons.mp hrs with rfl | hrs
  · exact ⟨⟨by decide, rfl⟩, by decide, by decide⟩
  · obtain rfl := List.mem_singleton.mp hrs
    exact ⟨⟨by decide, rfl⟩, by decide, by decide⟩

end Kripto.Deploy.MigrationGraph
