/-
# Can what is verified be imported?

`verify` compares the names of members as texts, but a path can be written in several ways, and a
file can be in the way of a directory.

* `imports_iff`: a bundle that `verify` accepts is staged, and found in order by `_load_staged`,
  just if its `files` can be iterated over, no path in it is a directory above another, every path
  can be made and looked up, and entries of one path have the same contents, for all that the checks
  see.

`two_spellings` is a bundle with `a` and `./a`.
-/
import Kripto.Promotion.ReturnBundle

namespace Kripto.Promotion.Return

open Effect Python

section Importing

variable [Platform] [HashBytes]

/-! ## 1. The statement -/

/-- The bundle is staged in an empty area, and what is staged is its manifest without problems. -/
def Imports (archive : Bytes) (git : Text) : Prop :=
  ∃ staged incoming tree zf manifest,
    stage archive (some git) (fun _ => none) = (.ok staged, incoming) ∧ staged.staged = true ∧
      incoming (HashBytes.sha256 archive).hex = some tree ∧ Platform.zipFile archive = .ok zf ∧
      (zf.read MANIFEST >>= Platform.loads) = .ok manifest ∧
      loadStaged tree (some git) = .ok (manifest, [])

/-- The path and the data of a row's member. -/
def member? (zf : ZipFile) (row : PyValue) : Option (List Text × Bytes) :=
  match entry? row with
  | none => none
  | some (_, name) => match zf.read name with
    | .ok data => some (parts name, data)
    | .error _ => none

def members (zf : ZipFile) (manifest : Dict) : List (List Text × Bytes) :=
  (rowsOf manifest).filterMap (member? zf)

/-- What `stage` writes, in its order. -/
def files (zf : ZipFile) (manifest : Dict) : List (List Text × Bytes) :=
  members zf manifest ++ [([MANIFEST], Platform.dumps (.dict manifest))]

/-- No check can tell `data` from `data'`. -/
structure Alike (data data' : Bytes) : Prop where
  digest : HashBytes.sha256 data = HashBytes.sha256 data'
  length : data.length = data'.length
  secrets : secretHits data' = []

/-- **The condition**, on the archive. -/
structure Importable (zf : ZipFile) (manifest : Dict) : Prop where
  iterable : (index (.dict manifest) "files" >>= iterate) = .ok (rowsOf manifest)
  apart : DirTree.Apart (files zf manifest)
  allowed : ∀ x ∈ files zf manifest, Platform.allows x.1 = true
  reached : ∀ x ∈ files zf manifest, Platform.reaches x.1 = true
  alike : ∀ x ∈ members zf manifest, ∀ y ∈ files zf manifest, x.1 = y.1 → Alike x.2 y.2

/-! ## 2. What `verify` has checked -/

/-- A row in order, with the name and the data of its member. -/
structure Good (zf : ZipFile) (row : PyValue) (x : Text × Bytes) : Prop where
  entry : ∃ fields, entry? row = some (fields, x.1) ∧ dataProblems "" fields x.1 x.2 = []
  safe : safeRel x.1 = true
  read : zf.read x.1 = .ok x.2

theorem good_of_checkRows {zf : ZipFile} {seen seen' : List Text} {rows : List PyValue}
    (h : checkRows zf seen rows = ([], .ok seen')) :
    ∃ items, List.Forall₂ (Good zf) rows items ∧ (items.map (·.1)).Nodup ∧
      ∀ x ∈ items, x.1 ∉ seen := by
  induction rows generalizing seen with
  | nil => exact ⟨[], .nil, List.nodup_nil, fun x hx => by cases hx⟩
  | cons row rows ih =>
    rw [checkRows] at h
    cases hentry : entry? row with
    | none =>
      rw [hentry] at h
      exact absurd (congrArg Prod.fst h) (by simp)
    | some e =>
      obtain ⟨fields, name⟩ := e
      rw [hentry] at h
      by_cases hsafe : safeRel name = true
      swap
      · simp [hsafe] at h
      by_cases hmem : name ∈ zf.infolist.map (·.filename)
      swap
      · simp [hsafe, hmem] at h
      simp only [hsafe, not_true_eq_false, if_false, hmem] at h
      cases hread : zf.read name with
      | error e =>
        rw [hread] at h
        cases (Prod.mk.inj h).2
      | ok data =>
        rw [hread] at h
        obtain ⟨hproblems, hseen⟩ := Prod.mk.inj h
        obtain ⟨hfirst, hrest⟩ := List.append_eq_nil_iff.mp hproblems
        obtain ⟨htwice, hdata⟩ := List.append_eq_nil_iff.mp hfirst
        have hnew : name ∉ seen := by
          intro hold
          simp [hold] at htwice
        obtain ⟨items, hitems, hnodup, hunseen⟩ := ih (Prod.ext hrest hseen)
        refine ⟨(name, data) :: items, .cons ⟨⟨fields, hentry, hdata⟩, hsafe, hread⟩ hitems, ?_, ?_⟩
        · refine List.nodup_cons.mpr ⟨fun hin => ?_, hnodup⟩
          obtain ⟨x, hx, hxname⟩ := List.mem_map.mp hin
          exact hunseen x hx (by simp [hxname])
        · intro x hx
          rcases List.mem_cons.mp hx with rfl | hold
          · exact hnew
          · exact fun hin => hunseen x hold (List.mem_cons_of_mem name hin)

/-- An archive that `verify` accepts. -/
structure Accepted (archive : Bytes) (git : Text) (zf : ZipFile) (manifest : Dict)
    (items : List (Text × Bytes)) : Prop where
  opened : Platform.zipFile archive = .ok zf
  manifest_read : (zf.read MANIFEST >>= Platform.loads) = .ok (.dict manifest)
  source : (dictGet manifest "source_git_commit_sha").isText git = true
  count : equalsNat (dictGet manifest "file_count") (rowsOf manifest).length = true
  rows : List.Forall₂ (Good zf) (rowsOf manifest) items
  nodup : (items.map (·.1)).Nodup

omit [HashBytes] in
theorem source_of_headerProblems {manifest : Dict} {git : Text}
    (h : headerProblems manifest (some git) = []) (hgit : git ≠ []) :
    (dictGet manifest "source_git_commit_sha").isText git = true ∧
      equalsNat (dictGet manifest "file_count") (rowsOf manifest).length = true := by
  obtain ⟨hfirst, hcount⟩ := List.append_eq_nil_iff.mp h
  obtain ⟨-, hsource⟩ := List.append_eq_nil_iff.mp hfirst
  constructor
  · by_contra hother
    simp [hgit, hother] at hsource
  · by_contra hother
    simp [hother] at hcount

theorem exists_of_verifies {archive : Bytes} {git : Text} (h : Verifies archive git) :
    ∃ v, verify archive (some git) = .ok v ∧ v.verified = true := by
  rw [Verifies] at h
  cases hverify : verify archive (some git) with
  | error e =>
    rw [hverify] at h
    cases h
  | ok v =>
    rw [hverify] at h
    exact ⟨v, rfl, Except.ok.inj h⟩

theorem accepted_of_verifies {archive : Bytes} {git : Text} (hverifies : Verifies archive git)
    (hgit : git ≠ []) : ∃ zf manifest items, Accepted archive git zf manifest items := by
  obtain ⟨v, h, hv⟩ := exists_of_verifies hverifies
  unfold verify at h
  cases hopened : Platform.zipFile archive with
  | error e =>
    rw [hopened] at h
    cases h
    simp [result] at hv
  | ok zf =>
    rw [hopened] at h
    by_cases hmem : MANIFEST ∈ zf.infolist.map (·.filename)
    swap
    · simp only [hmem, not_false_iff, if_true] at h
      cases h
      cases hv
    simp only [hmem, not_true_eq_false, if_false] at h
    cases hread : (zf.read MANIFEST >>= Platform.loads) with
    | error e =>
      rw [hread] at h
      cases h
      simp [result] at hv
    | ok value =>
      rw [hread] at h
      cases value with
      | dict manifest =>
        cases h
        have hnone : checkManifest zf manifest (some git) = [] :=
          (List.append_eq_nil_iff.mp (List.isEmpty_iff.mp hv)).2
        obtain ⟨hchecked, hleft⟩ := List.append_eq_nil_iff.mp hnone
        obtain ⟨hheader, hrows⟩ := List.append_eq_nil_iff.mp hchecked
        obtain ⟨hsource, hcount⟩ := source_of_headerProblems hheader hgit
        cases hseen : (checkRows zf [] (rowsOf manifest)).2 with
        | error e =>
          rw [hseen] at hleft
          cases hleft
        | ok seen =>
          obtain ⟨items, hitems, hnodup, -⟩ := good_of_checkRows (Prod.ext hrows hseen)
          exact ⟨zf, manifest, items, hopened, hread, hsource, hcount, hitems, hnodup⟩
      | _ => cases h

/-! ## 3. What `stage` does with it -/

section Stage

variable {archive : Bytes} {git : Text} {zf : ZipFile} {manifest : Dict} {row : PyValue}
  {rows : List PyValue} {items : List (Text × Bytes)} {x : Text × Bytes} {t : StagedTree}

omit [Platform] [HashBytes] in
theorem entry?_eq {fields : Dict} {name : Text} (h : entry? row = some (fields, name)) :
    row = .dict fields ∧ fields.lookup (.str (Text.of "path")) = some (.str name) := by
  unfold entry? at h
  split at h
  · rename_i fields'
    split at h
    · rename_i name' hname
      obtain ⟨rfl, rfl⟩ := Prod.mk.inj (Option.some.inj h)
      refine ⟨rfl, ?_⟩
      unfold dictGet at hname
      cases hlookup : List.lookup (Key.str (Text.of "path")) fields' with
      | none => simp [hlookup] at hname
      | some v => simpa [hlookup] using hname
    · cases h
  · cases h

omit [Platform] [HashBytes] in
theorem index_path {fields : Dict} {name : Text} (h : entry? row = some (fields, name)) :
    index row "path" = .ok (.str name) := by
  obtain ⟨rfl, hpath⟩ := entry?_eq h
  simp [index, hpath]

theorem stageRow_of_good (h : Good zf row x) :
    stageRow zf t row = orOSError (t.put Platform.allows (parts x.1, x.2)) := by
  obtain ⟨fields, hentry, -⟩ := h.entry
  rw [stageRow, index_path hentry]
  change (zf.read x.1 >>= fun data => orOSError (t.put Platform.allows (parts x.1, data))) = _
  rw [h.read]
  rfl

theorem member?_of_good (h : Good zf row x) : member? zf row = some (parts x.1, x.2) := by
  obtain ⟨fields, hentry, -⟩ := h.entry
  simp [member?, hentry, h.read]

theorem members_eq (h : List.Forall₂ (Good zf) rows items) :
    rows.filterMap (member? zf) = items.map fun x => (parts x.1, x.2) := by
  induction h with
  | nil => rfl
  | cons hgood _ ih => rw [List.filterMap_cons, member?_of_good hgood, ih, List.map_cons]

theorem good_of_mem (h : List.Forall₂ (Good zf) rows items) (hx : x ∈ items) :
    ∃ row, Good zf row x := by
  induction h with
  | nil => cases hx
  | cons hgood _ ih =>
    rcases List.mem_cons.mp hx with rfl | hrest
    · exact ⟨_, hgood⟩
    · exact ih hrest

/-- The rows are written one after the other. -/
theorem foldlM_stageRow (h : List.Forall₂ (Good zf) rows items) :
    rows.foldlM (stageRow zf) t =
      orOSError (t.putAll Platform.allows (rows.filterMap (member? zf))) := by
  induction h generalizing t with
  | nil => rfl
  | @cons row x rows items hgood hrest ih =>
    rw [List.foldlM_cons, stageRow_of_good hgood, List.filterMap_cons, member?_of_good hgood]
    simp only [DirTree.putAll, List.foldlM_cons]
    cases t.put Platform.allows (parts x.1, x.2) with
    | none => rfl
    | some t' => exact ih

omit [Platform] [HashBytes] in
theorem parts_ne_nil (h : safeRel x.1 = true) : parts x.1 ≠ [] := by
  simp only [safeRel, decide_eq_true_eq] at h
  exact h.1

/-- **The tree that is staged.** -/
theorem stagedTree_eq (h : Accepted archive git zf manifest items)
    (hiter : (index (.dict manifest) "files" >>= iterate) = .ok (rowsOf manifest)) :
    stagedTree archive = orOSError (DirTree.putAll Platform.allows DirTree.empty
      (files zf manifest)) := by
  have hbind : ∀ {α β : Type} (a : α) (f : α → Except String β), (Except.ok a >>= f) = f a :=
    fun _ _ => rfl
  simp only [stagedTree, h.opened, hbind, h.manifest_read, hiter, foldlM_stageRow h.rows, files,
    members, DirTree.putAll, List.foldlM_append, List.foldlM_cons, List.foldlM_nil]
  cases List.foldlM (DirTree.put Platform.allows) DirTree.empty
    ((rowsOf manifest).filterMap (member? zf)) with
  | none => rfl
  | some t =>
    simp only [orOSError, hbind, Option.bind_eq_bind, Option.bind_some, Option.pure_def,
      Option.bind_fun_some]

omit [Platform] [HashBytes] in
theorem index_keyValue (k : Key) (name : String) :
    index (keyValue k) name = .error "TypeError" := by
  cases k <;> rfl

omit [Platform] [HashBytes] in
/-- What else can be iterated over has no dictionaries in it. -/
theorem index_of_iterate (h : (index (.dict manifest) "files" >>= iterate) = .ok rows)
    (hother : rows ≠ rowsOf manifest) :
    ∃ row rest, rows = row :: rest ∧ index row "path" = .error "TypeError" := by
  cases hfiles : manifest.lookup (.str (Text.of "files")) with
  | none =>
    rw [index, hfiles] at h
    cases h
  | some v =>
    rw [index, hfiles] at h
    have hiterate : iterate v = .ok rows := h
    have hget : dictGet manifest "files" = v := by
      rw [dictGet, hfiles, Option.getD_some]
    rw [rowsOf, hget] at hother
    cases v with
    | list rows' =>
      cases hiterate
      exact absurd rfl hother
    | str s =>
      cases hiterate
      cases s with
      | nil => exact absurd rfl hother
      | cons c s => exact ⟨_, _, rfl, rfl⟩
    | dict fields =>
      cases hiterate
      cases fields with
      | nil => exact absurd rfl hother
      | cons field fields => exact ⟨_, _, rfl, index_keyValue field.1 "path"⟩
    | _ => cases hiterate

omit [HashBytes] in
theorem foldlM_stageRow_of_index {e : String} (h : index row "path" = .error e) :
    (row :: rows).foldlM (stageRow zf) t = .error e := by
  rw [List.foldlM_cons, stageRow, h]
  rfl

/-- What cannot be iterated over, or gives rows that `verify` has not looked at, is not staged. -/
theorem stagedTree_of_not_iterable (h : Accepted archive git zf manifest items)
    (hiter : (index (.dict manifest) "files" >>= iterate) ≠ .ok (rowsOf manifest)) :
    ∃ e, stagedTree archive = .error e := by
  have hbind : ∀ {α β : Type} (a : α) (f : α → Except String β), (Except.ok a >>= f) = f a :=
    fun _ _ => rfl
  simp only [stagedTree, h.opened, hbind, h.manifest_read]
  cases hrows : (index (.dict manifest) "files" >>= iterate) with
  | error e => exact ⟨e, rfl⟩
  | ok rows =>
    have hother : rows ≠ rowsOf manifest := fun heq => hiter (by rw [hrows, heq])
    obtain ⟨row, rest, rfl, hrow⟩ := index_of_iterate hrows hother
    refine ⟨"TypeError", ?_⟩
    rw [hbind, foldlM_stageRow_of_index hrow]
    rfl

theorem paths_ne_nil (h : Accepted archive git zf manifest items) :
    ∀ y ∈ files zf manifest, y.1 ≠ [] := by
  intro y hy
  rcases List.mem_append.mp hy with hmember | hmarker
  · rw [members, members_eq h.rows] at hmember
    obtain ⟨x, hx, rfl⟩ := List.mem_map.mp hmember
    obtain ⟨row, hgood⟩ := good_of_mem h.rows hx
    exact parts_ne_nil hgood.safe
  · rw [List.mem_singleton.mp hmarker]
    simp

/-! ## 4. What `_load_staged` finds -/

omit [HashBytes] in
theorem equalsNat_injective {v : PyValue} {n m : ℕ} (hn : equalsNat v n = true)
    (hm : equalsNat v m = true) : n = m := by
  cases v with
  | int k =>
    simp only [equalsNat, decide_eq_true_eq] at hn hm
    omega
  | bool b =>
    simp only [equalsNat, decide_eq_true_eq] at hn hm
    omega
  | float repr =>
    simp only [equalsNat, decide_eq_true_eq] at hn hm
    rw [hn] at hm
    exact_mod_cast Option.some.inj hm
  | _ => cases hn

theorem dataProblems_eq_nil {mark : String} {fields : Dict} {name : Text} {data : Bytes} :
    dataProblems mark fields name data = [] ↔
      (dictGet fields "sha256").isText (HashBytes.sha256 data).hex = true ∧
        equalsNat (dictGet fields "size") data.length = true ∧ secretHits data = [] := by
  simp only [dataProblems, List.append_eq_nil_iff, List.map_eq_nil_iff, and_assoc]
  refine and_congr ?_ (and_congr ?_ Iff.rfl)
  · split <;> simp [*]
  · split <;> simp [*]

/-- The checks of a row find nothing in the data staged under its path just if they cannot tell it
from the data `verify` has read. -/
theorem dataProblems_eq_nil_iff {mark : String} {fields : Dict} {name : Text} {data data' : Bytes}
    (h : dataProblems "" fields name data = []) :
    dataProblems mark fields name data' = [] ↔ Alike data data' := by
  obtain ⟨hdigest, hsize, -⟩ := dataProblems_eq_nil.mp h
  rw [dataProblems_eq_nil]
  constructor
  · rintro ⟨hdigest', hsize', hsecrets⟩
    rw [PyValue.isText_iff] at hdigest hdigest'
    have hhex := PyValue.str.inj (hdigest.symm.trans hdigest')
    exact ⟨Python.Digest.hex_injective hhex, equalsNat_injective hsize hsize', hsecrets⟩
  · rintro ⟨hdigest', hlength, hsecrets⟩
    rw [← hdigest', ← hlength]
    exact ⟨hdigest, hsize, hsecrets⟩

omit [Platform] [HashBytes] in
theorem map_append_eq_nil_iff {found : Except String (List Text)} {problems : List Text} :
    (found.map fun rest => problems ++ rest) = .ok [] ↔ problems = [] ∧ found = .ok [] := by
  cases found with
  | error e => simp [Except.map]
  | ok rest => simp [Except.map]

theorem loadRows_eq_nil_iff {seen : List Text} (h : List.Forall₂ (Good zf) rows items)
    (hnodup : (items.map (·.1)).Nodup) (hseen : ∀ x ∈ items, x.1 ∉ seen) :
    loadRows t seen rows = .ok [] ↔ ∀ x ∈ items, Platform.reaches (parts x.1) = true ∧
      ∃ data, t (parts x.1) = some (.file data) ∧ Alike x.2 data := by
  induction h generalizing seen with
  | nil => simp [loadRows]
  | @cons row x rows items hgood hrest ih =>
    obtain ⟨fields, hentry, hdata⟩ := hgood.entry
    have hnew : x.1 ∉ seen := hseen x List.mem_cons_self
    obtain ⟨hfirst, hnodup⟩ := List.nodup_cons.mp hnodup
    have hlater : ∀ y ∈ items, y.1 ∉ x.1 :: seen := by
      intro y hy hin
      rcases List.mem_cons.mp hin with heq | hold
      · exact hfirst (List.mem_map.mpr ⟨y, hy, heq⟩)
      · exact hseen y (List.mem_cons_of_mem x hy) hold
    rw [List.forall_mem_cons, ← ih hnodup hlater, loadRows, hentry]
    simp only [hgood.safe, not_true_eq_false, if_false, hnew, List.nil_append]
    by_cases hreaches : Platform.reaches (parts x.1) = true
    swap
    · simp [hreaches]
    simp only [hreaches, not_true_eq_false, if_false, map_append_eq_nil_iff, true_and]
    refine and_congr_left fun _ => ?_
    split
    · rename_i data hfile
      rw [dataProblems_eq_nil_iff hdata]
      constructor
      · exact fun halike => ⟨data, hfile, halike⟩
      · rintro ⟨data', hfile', halike⟩
        rw [hfile] at hfile'
        cases hfile'
        exact halike
    · rename_i hfile
      simp only [List.cons_ne_self, false_iff]
      rintro ⟨data, hdata, -⟩
      exact hfile data hdata

/-! ## 5. The result -/

omit [Platform] [HashBytes] in
theorem sortedSet_eq_nil_iff {problems : List Text} : sortedSet problems = [] ↔ problems = [] := by
  rw [sortedSet, ← List.length_eq_zero_iff, List.length_insertionSort, List.length_eq_zero_iff,
    List.dedup_eq_nil]

theorem mem_members (h : Accepted archive git zf manifest items) {y : List Text × Bytes} :
    y ∈ members zf manifest ↔ ∃ x ∈ items, y = (parts x.1, x.2) := by
  rw [members, members_eq h.rows, List.mem_map]
  constructor
  · rintro ⟨x, hx, rfl⟩
    exact ⟨x, hx, rfl⟩
  · rintro ⟨x, hx, rfl⟩
    exact ⟨x, hx, rfl⟩

/-- Under the path of a member stands one of the files. -/
theorem built_files (h : Accepted archive git zf manifest items) (hx : x ∈ items) :
    ∃ data, (parts x.1, data) ∈ files zf manifest ∧
      DirTree.built (files zf manifest) (parts x.1) = some (.file data) := by
  have hmem : (parts x.1, x.2) ∈ files zf manifest :=
    List.mem_append_left _ ((mem_members h).mpr ⟨x, hx, rfl⟩)
  have hsome : (DirTree.content (files zf manifest) (parts x.1)).isSome :=
    DirTree.isSome_content_iff.mpr ⟨_, hmem, rfl⟩
  obtain ⟨data, hdata⟩ := Option.isSome_iff_exists.mp hsome
  exact ⟨data, DirTree.mem_of_content hdata, DirTree.built_eq_file_iff.mpr hdata⟩

omit [HashBytes] in
theorem content_marker : DirTree.content (files zf manifest) [MANIFEST] =
    some (Platform.dumps (.dict manifest)) := by
  rw [files, DirTree.content_append, if_pos rfl]

/-- The rows of what is staged are in order just if the files of one path are alike. -/
theorem loadRows_built (h : Accepted archive git zf manifest items) :
    loadRows (DirTree.built (files zf manifest)) [] (rowsOf manifest) = .ok [] ↔
      (∀ x ∈ members zf manifest, Platform.reaches x.1 = true) ∧
      ∀ x ∈ members zf manifest, ∀ y ∈ files zf manifest, x.1 = y.1 → Alike x.2 y.2 := by
  rw [loadRows_eq_nil_iff h.rows h.nodup fun _ _ => List.not_mem_nil]
  constructor
  · intro hload
    refine ⟨fun x hx => ?_, fun x hx y hy hpath => ?_⟩
    · obtain ⟨item, hitem, rfl⟩ := (mem_members h).mp hx
      exact (hload item hitem).1
    obtain ⟨item, hitem, rfl⟩ := (mem_members h).mp hx
    obtain ⟨-, data, hdata, halike⟩ := hload item hitem
    rcases List.mem_append.mp hy with hmember | hmarker
    · obtain ⟨other, hother, rfl⟩ := (mem_members h).mp hmember
      obtain ⟨-, data', hdata', halike'⟩ := hload other hother
      have hsame : parts item.1 = parts other.1 := hpath
      rw [hsame, hdata'] at hdata
      cases hdata
      obtain ⟨row, hgood⟩ := good_of_mem h.rows hother
      obtain ⟨fields, -, hproblems⟩ := hgood.entry
      exact ⟨halike.digest.trans halike'.digest.symm, halike.length.trans halike'.length.symm,
        (dataProblems_eq_nil.mp hproblems).2.2⟩
    · obtain rfl := List.mem_singleton.mp hmarker
      have hsame : parts item.1 = [MANIFEST] := hpath
      rw [hsame, DirTree.built_eq_file_iff, content_marker] at hdata
      cases hdata
      exact halike
  · rintro ⟨hreached, halike⟩ x hx
    have hmember := (mem_members h).mpr ⟨x, hx, rfl⟩
    obtain ⟨data, hmem, hdata⟩ := built_files h hx
    exact ⟨hreached _ hmember, data, hdata, halike _ hmember _ hmem rfl⟩

/-- What has been verified is imported just if its tree is staged and found in order. -/
theorem imports_iff_stagedTree (hverifies : Verifies archive git)
    (h : Accepted archive git zf manifest items) : Imports archive git ↔
      ∃ t, stagedTree archive = .ok t ∧ loadStaged t (some git) = .ok (.dict manifest, []) := by
  obtain ⟨v, hverify, hv⟩ := exists_of_verifies hverifies
  have hstage : ∀ t, stagedTree archive = .ok t → stage archive (some git) (fun _ => none) =
      (.ok ⟨true, some false, some (HashBytes.sha256 archive).hex, []⟩,
        Function.update (fun _ => none) (HashBytes.sha256 archive).hex (some t)) := by
    intro t ht
    simp only [stage, hverify, hv, not_true_eq_false, if_false, ht]
  constructor
  · rintro ⟨staged, incoming, tree, zf', manifest', hstaged, -, htree, hopened, hread, hload⟩
    obtain rfl : zf = zf' := Except.ok.inj (h.opened.symm.trans hopened)
    obtain rfl : .dict manifest = manifest' := Except.ok.inj (h.manifest_read.symm.trans hread)
    cases ht : stagedTree archive with
    | error e =>
      simp only [stage, hverify, hv, not_true_eq_false, if_false, ht] at hstaged
      cases (Prod.mk.inj hstaged).1
    | ok t =>
      rw [hstage t ht] at hstaged
      rw [← (Prod.mk.inj hstaged).2, Function.update_self] at htree
      cases htree
      exact ⟨_, rfl, hload⟩
  · rintro ⟨t, ht, hload⟩
    exact ⟨_, _, t, zf, .dict manifest, hstage t ht, rfl, Function.update_self _ _ _, h.opened,
      h.manifest_read, hload⟩

section Result

variable (hround : ∀ bytes v, Platform.loads bytes = .ok v →
  Platform.loads (Platform.dumps v) = .ok v)

include hround

theorem loadStaged_built (h : Accepted archive git zf manifest items) :
    loadStaged (DirTree.built (files zf manifest)) (some git) = .ok (.dict manifest, []) ↔
      (∀ x ∈ files zf manifest, Platform.reaches x.1 = true) ∧
      ∀ x ∈ members zf manifest, ∀ y ∈ files zf manifest, x.1 = y.1 → Alike x.2 y.2 := by
  have hloads : Platform.loads (Platform.dumps (.dict manifest)) = .ok (.dict manifest) := by
    have hread := h.manifest_read
    cases hbytes : zf.read MANIFEST with
    | error e =>
      rw [hbytes] at hread
      cases hread
    | ok bytes =>
      rw [hbytes] at hread
      exact hround bytes _ hread
  by_cases hreaches : Platform.reaches [MANIFEST] = true
  swap
  · have hmarker : readMarker (DirTree.built (files zf manifest)) = .error "OSError" :=
      if_pos hreaches
    have hmem : ([MANIFEST], Platform.dumps (.dict manifest)) ∈ files zf manifest :=
      List.mem_append_right _ (List.mem_singleton_self _)
    rw [loadStaged, hmarker]
    constructor
    · intro hload
      cases (Prod.mk.inj (Except.ok.inj hload)).2
    · exact fun hall => absurd (hall.1 _ hmem) hreaches
  have hmarker : readMarker (DirTree.built (files zf manifest)) = .ok (.dict manifest) := by
    rw [readMarker, if_neg (not_not_intro hreaches), DirTree.built_eq_file_iff.mpr content_marker]
    exact hloads
  have hfiles : (∀ x ∈ files zf manifest, Platform.reaches x.1 = true) ↔
      ∀ x ∈ members zf manifest, Platform.reaches x.1 = true := by
    simp [files, or_imp, forall_and, hreaches]
  rw [hfiles, ← loadRows_built h, loadStaged, hmarker]
  simp only [reduceCtorEq, if_false, Option.any_some, h.source, h.count, if_true, List.nil_append]
  cases loadRows (DirTree.built (files zf manifest)) [] (rowsOf manifest) with
  | error e => simp [Except.map]
  | ok found =>
    simp only [Except.map, Except.ok.injEq, Prod.mk.injEq, true_and, sortedSet_eq_nil_iff]

/-- What is staged and found in order meets the condition. -/
theorem Accepted.importable (h : Accepted archive git zf manifest items) {t : StagedTree}
    (ht : stagedTree archive = .ok t)
    (hload : loadStaged t (some git) = .ok (.dict manifest, [])) : Importable zf manifest := by
  by_cases hiter : (index (.dict manifest) "files" >>= iterate) = .ok (rowsOf manifest)
  swap
  · obtain ⟨e, he⟩ := stagedTree_of_not_iterable h hiter
    rw [he] at ht
    cases ht
  rw [stagedTree_eq h hiter, DirTree.putAll_eq (paths_ne_nil h)] at ht
  split at ht
  swap
  · cases ht
  rename_i hput
  cases ht
  obtain ⟨hreached, halike⟩ := (loadStaged_built hround h).mp hload
  exact ⟨hiter, hput.1, hput.2, hreached, halike⟩

theorem Importable.exists_stagedTree (himportable : Importable zf manifest)
    (h : Accepted archive git zf manifest items) :
    ∃ t, stagedTree archive = .ok t ∧ loadStaged t (some git) = .ok (.dict manifest, []) := by
  refine ⟨DirTree.built (files zf manifest), ?_, ?_⟩
  · rw [stagedTree_eq h himportable.iterable, DirTree.putAll_eq (paths_ne_nil h),
      if_pos ⟨himportable.apart, himportable.allowed⟩]
    rfl
  · exact (loadStaged_built hround h).mpr ⟨himportable.reached, himportable.alike⟩

/-- What can be imported meets the condition. -/
theorem importable_of_imports (hgit : git.length = 40) (hverifies : Verifies archive git)
    (himports : Imports archive git) : ∃ zf manifest, Platform.zipFile archive = .ok zf ∧
      (zf.read MANIFEST >>= Platform.loads) = .ok (.dict manifest) ∧ Importable zf manifest := by
  have hne : git ≠ [] := by
    rintro rfl
    cases hgit
  obtain ⟨zf, manifest, items, h⟩ := accepted_of_verifies hverifies hne
  obtain ⟨t, ht, hload⟩ := (imports_iff_stagedTree hverifies h).mp himports
  exact ⟨zf, manifest, h.opened, h.manifest_read, h.importable hround ht hload⟩

end Result

end Stage

end Importing

/-! ## 6. Two spellings of one path -/

section TwoSpellings

def ascii (s : String) : Bytes := s.toList.map fun c => Fin.ofNat 256 c.toNat

def digestX : Python.Digest :=
  ⟨[0x2d, 0x71, 0x16, 0x42, 0xb7, 0x26, 0xb0, 0x44, 0x01, 0x62, 0x7c, 0xa9, 0xfb, 0xac, 0x32, 0xf5,
    0xc8, 0x53, 0x0f, 0xb1, 0x90, 0x3c, 0xc4, 0xdb, 0x02, 0x25, 0x87, 0x17, 0x92, 0x1a, 0x48, 0x81],
    rfl⟩

def digestY : Python.Digest :=
  ⟨[0xa1, 0xfc, 0xe4, 0x36, 0x38, 0x54, 0xff, 0x88, 0x8c, 0xff, 0x4b, 0x8e, 0x78, 0x75, 0xd6, 0x00,
    0xc2, 0x68, 0x23, 0x90, 0x41, 0x2a, 0x8c, 0xf7, 0x9b, 0x37, 0xd0, 0xb1, 0x11, 0x48, 0xb0, 0xfa],
    rfl⟩

/-- The digests of `x` and `y`; nothing else is looked at. -/
@[reducible] def digestsXY : HashBytes :=
  ⟨fun data => if data = ascii "y" then digestY else digestX, fun _ message => message⟩

def localSha : String := "0123456789abcdef0123456789abcdef01234567"

/-- The manifest with these rows. -/
def manifestOf (rows : List (String × Python.Digest)) : Dict :=
  [(.str (Text.of "classification"), .str (Text.of CLASSIFICATION)),
    (.str (Text.of "file_count"), .int rows.length),
    (.str (Text.of "files"), .list (rows.map fun row => .dict
      [(.str (Text.of "path"), .str (Text.of row.1)), (.str (Text.of "sha256"), .str row.2.hex),
        (.str (Text.of "size"), .int 1)])),
    (.str (Text.of "schema_version"), .str (Text.of "1.0")),
    (.str (Text.of "secret_transport"), .bool false),
    (.str (Text.of "source_git_commit_sha"), .str (Text.of localSha))]

/-- Its text, with the rows that are given. -/
def textOf (count : String) (rows : Bytes) : Bytes :=
  ascii "\x7b\n  \"classification\": \"" ++ (ascii CLASSIFICATION ++
    (ascii "\",\n  \"file_count\": " ++ (ascii count ++ (ascii ",\n  \"files\": [\n" ++ rows ++
      ascii "\n  ],\n  \"schema_version\": \"1.0\",\n  \"secret_transport\": false,\n" ++
        ascii "  \"source_git_commit_sha\": \"" ++ ascii localSha ++ ascii "\"\n\x7d\n"))))

def rowText (path sha256 : String) : Bytes :=
  ascii "    \x7b\n      \"path\": \"" ++ ascii path ++ ascii "\",\n      \"sha256\": \"" ++
    ascii sha256 ++ ascii "\",\n      \"size\": 1\n    \x7d"

def hexX : String := "2d711642b726b04401627ca9fbac32f5c8530fb1903cc4db02258717921a4881"

def hexY : String := "a1fce4363854ff888cff4b8e7875d600c2682390412a8cf79b37d0b11148b0fa"

/-- A manifest that lists `a`, and one that lists `a` and `./a`. -/
def plainRows : List (String × Python.Digest) := [("a", digestX)]

def spelledRows : List (String × Python.Digest) := [("a", digestX), ("./a", digestY)]

def plainText : Bytes := textOf "1" (rowText "a" hexX)

def spelledText : Bytes :=
  textOf "2" (rowText "a" hexX ++ ascii ",\n" ++ rowText "./a" hexY)

/-- An archive of regular files. -/
def zipOf (data : List (String × Bytes)) : ZipFile where
  infolist := data.map fun e => ⟨Text.of e.1, 0o100644 * 65536, 3⟩
  read name := match data.find? fun e => Text.of e.1 = name with
    | some e => .ok e.2
    | none => .error "KeyError"

def manifestName : String := "ACCEPTANCE_RETURN_MANIFEST.json"

def plainZip : ZipFile := zipOf [("a", ascii "x"), (manifestName, plainText)]

def spelledZip : ZipFile :=
  zipOf [("a", ascii "x"), ("./a", ascii "y"), (manifestName, spelledText)]

def loadsText (text : Bytes) : Except String PyValue :=
  if text = plainText then .ok (.dict (manifestOf plainRows))
  else if text = spelledText then .ok (.dict (manifestOf spelledRows))
  else .error "JSONDecodeError"

def dumpsText : PyValue → Bytes
  | .dict manifest => if (rowsOf manifest).length = 1 then plainText else spelledText
  | _ => []

/-- Names of at most 255 characters, and a path of at most `most`. -/
def fits (most : ℕ) (path : List Text) : Bool :=
  path.all (fun name => name.length ≤ 255) && (path.map fun name => name.length + 1).sum ≤ most

/-- Two archives, of one byte each. -/
@[reducible] def twoArchives : Platform where
  zipFile archive :=
    if archive = [0] then .ok plainZip else .ok spelledZip
  loads := loadsText
  dumps := dumpsText
  floatValue _ := none
  search _ _ := false
  allows path := fits 4000 path
  reaches path := fits 3950 path

attribute [local instance] twoArchives digestsXY

/-- The two texts are different where the rows are counted. -/
theorem spelledText_ne : spelledText ≠ plainText := by
  intro h
  have hcount := List.append_cancel_left (List.append_cancel_left (List.append_cancel_left h))
  have hone : ascii "1" = [49] := by decide
  have htwo : ascii "2" = [50] := by decide
  rw [hone, htwo] at hcount
  exact absurd (List.cons.inj hcount).1 (by decide)

theorem loadsText_plain : loadsText plainText = .ok (.dict (manifestOf plainRows)) := if_pos rfl

theorem loadsText_spelled : loadsText spelledText = .ok (.dict (manifestOf spelledRows)) := by
  rw [loadsText, if_neg spelledText_ne, if_pos rfl]

theorem dumpsText_plain : dumpsText (.dict (manifestOf plainRows)) = plainText := by
  have hone : (rowsOf (manifestOf plainRows)).length = 1 := by decide
  rw [dumpsText, if_pos hone]

theorem dumpsText_spelled : dumpsText (.dict (manifestOf spelledRows)) = spelledText := by
  have htwo : (rowsOf (manifestOf spelledRows)).length ≠ 1 := by decide
  rw [dumpsText, if_neg htwo]

theorem loads_dumps (bytes : Bytes) (v : PyValue) (h : Platform.loads bytes = .ok v) :
    Platform.loads (Platform.dumps v) = .ok v := by
  change loadsText bytes = .ok v at h
  change loadsText (dumpsText v) = .ok v
  unfold loadsText at h
  split at h
  · cases h
    rw [dumpsText_plain, loadsText_plain]
  · split at h
    · cases h
      rw [dumpsText_spelled, loadsText_spelled]
    · cases h

theorem read_zipOf {data : List (String × Bytes)} {name : Text} {e : String × Bytes}
    (h : data.find? (fun e => Text.of e.1 = name) = some e) : (zipOf data).read name = .ok e.2 := by
  simp only [zipOf, h]

theorem manifest_read {zf : ZipFile} {text : Bytes} {manifest : Dict}
    (hread : zf.read MANIFEST = .ok text) (hloads : loadsText text = .ok (.dict manifest)) :
    (zf.read MANIFEST >>= Platform.loads) = .ok (.dict manifest) := by
  rw [hread]
  exact hloads

theorem read_plain : (plainZip.read MANIFEST >>= Platform.loads) =
    .ok (.dict (manifestOf plainRows)) := by
  refine manifest_read (read_zipOf (e := (manifestName, plainText)) ?_) loadsText_plain
  rw [List.find?_cons_of_neg (by decide), List.find?_cons_of_pos (by decide)]

theorem read_spelled : (spelledZip.read MANIFEST >>= Platform.loads) =
    .ok (.dict (manifestOf spelledRows)) := by
  refine manifest_read (read_zipOf (e := (manifestName, spelledText)) ?_) loadsText_spelled
  rw [List.find?_cons_of_neg (by decide), List.find?_cons_of_neg (by decide),
    List.find?_cons_of_pos (by decide)]

/-- An archive in which `verify` finds nothing wrong. -/
theorem verifies_of_no_problems {archive : Bytes} {git : Text} {zf : ZipFile} {manifest : Dict}
    (hopened : Platform.zipFile archive = .ok zf) (hmem : MANIFEST ∈ zf.infolist.map (·.filename))
    (hread : (zf.read MANIFEST >>= Platform.loads) = .ok (.dict manifest))
    (hnone : memberProblems zf.infolist ++ checkManifest zf manifest (some git) = []) :
    Verifies archive git := by
  simp only [Verifies, verify, hopened, hmem, not_true_eq_false, if_false, hread, hnone, result]
  rfl

theorem verifies_plain : Verifies [0] (Text.of localSha) := by
  have hopened : Platform.zipFile [0] = .ok plainZip := rfl
  exact verifies_of_no_problems hopened (by decide) read_plain (by decide)

theorem verifies_spelled : Verifies [1] (Text.of localSha) := by
  have hopened : Platform.zipFile [1] = .ok spelledZip := rfl
  exact verifies_of_no_problems hopened (by decide) read_spelled (by decide)

theorem importable_plain : Importable plainZip (manifestOf plainRows) where
  iterable := rfl
  apart := by decide
  allowed := by decide
  reached := by decide
  alike := by
    have hmembers : members plainZip (manifestOf plainRows) = [([Text.of "a"], ascii "x")] := by
      decide
    have hother : [Text.of "a"] ≠ [MANIFEST] := by decide
    rw [files, hmembers]
    intro x hx y hy hpath
    obtain rfl := List.mem_singleton.mp hx
    rcases List.mem_append.mp hy with hmember | hmarker
    · obtain rfl := List.mem_singleton.mp hmember
      exact ⟨rfl, rfl, rfl⟩
    · rw [List.mem_singleton.mp hmarker] at hpath
      exact absurd hpath hother

theorem not_importable_spelled : ¬ Importable spelledZip (manifestOf spelledRows) := by
  intro h
  have hx : ([Text.of "a"], ascii "x") ∈ members spelledZip (manifestOf spelledRows) := by
    decide
  have hy : ([Text.of "a"], ascii "y") ∈ files spelledZip (manifestOf spelledRows) :=
    List.mem_append_left _ (by decide)
  have hdigest : digestX = digestY := (h.alike _ hx _ hy rfl).digest
  exact absurd hdigest (by decide)

end TwoSpellings

end Kripto.Promotion.Return
