/-
# Concrete promotions

A deterministic disk to play promotions on: every operation does what it is for, `rmtree` and
`copytree` have done nothing yet at the half, and chosen operations raise.
-/
import Kripto.Effect.Play
import Kripto.Promotion.Stage

namespace Kripto.Promotion

open Effect

/-- What the surroundings of a promotion answer. -/
structure Outside where
  sha : String
  loaded : Loaded
  post : Verdict

/-- One effect of each operation. -/
def Disk.act (e : Outside) : (o : Op) → Disk → diskSig.Ans o × Disk
  | .readJournal, s => (.ok s.journal, s)
  | .writeJournal j, s => (.ok (), { s with journal := .doc j })
  | .unlinkJournal, s => (.ok (), { s with journal := .absent })
  | .readLedger, s => (.ok s.ledger, s)
  | .writeLedger d, s => (.ok (), { s with ledger := .doc d })
  | .dirExists dir, s => (.ok (s.dirs dir).isSome, s)
  | .rmtreeSome _, s => (.ok (), s)
  | .rmtreeRest dir, s => (.ok (), s.setDir dir none)
  | .copytreeSome src dst, s =>
    if (s.dirs src).isSome then (.ok (), s.setDir dst (some ∅))
    else (.error "FileNotFoundError", s)
  | .copytreeRest src dst, s => (.ok (), s.setDir dst (s.dirs src))
  | .mkdir dir, s => (.ok (), s.setDir dir (some ∅))
  | .copyInto dir path content, s =>
    (.ok (), s.setDir dir (some (((s.dirs dir).getD ∅).insert path content)))
  | .replace src dst, s =>
    if s.CanReplace src dst then (.ok (), (s.setDir src none).setDir dst (s.dirs src))
    else (.error "OSError", s)
  | .gitSha, s => (.ok (some e.sha), s)
  | .loadStaged, s => (.ok e.loaded, s)
  | .semanticVerify, s => (.ok ⟨true, []⟩, s)
  | .trustAnchor, s => (.ok [], s)
  | .postVerify, s => (.ok e.post, s)
  | .utcNow, s => (.ok "2026-01-01T00:00:00Z", s)

theorem Disk.effect_act (e : Outside) (o : Op) (s : Disk) :
    s.Effect o (s.act e o).1 (s.act e o).2 := by
  cases o with
  | rmtreeSome dir =>
    refine ⟨rfl, ?_⟩
    cases h : s.dirs dir with
    | none => exact Or.inl ⟨rfl, rfl⟩
    | some t =>
      refine Or.inr ⟨t, t, rfl, List.Sublist.refl _, ?_⟩
      rw [← h]
      simp [Disk.act, Disk.setDir]
  | copytreeSome src dst =>
    simp only [Disk.act, Disk.Effect]
    cases h : s.dirs src with
    | none => exact Or.inl ⟨rfl, rfl, rfl⟩
    | some t => exact Or.inr ⟨rfl, t, ∅, rfl, List.nil_sublist _, rfl⟩
  | replace src dst =>
    simp only [Disk.act, Disk.Effect]
    split
    · exact Or.inl ⟨‹_›, rfl, rfl⟩
    · exact Or.inr ⟨‹_›, rfl, rfl⟩
  | _ => simp [Disk.act, Disk.Effect]

/-- The disk on which exactly the operations in `fails` raise. -/
def venture (fails : Op → Bool) (e : Outside) : Script diskSig (Disk × Seen) := fun o s =>
  if fails o then (.error "OSError", (s.1, Seen.note o s.1 (.error "OSError") s.2))
  else ((s.1.act e o).1, ((s.1.act e o).2, Seen.note o s.1 (s.1.act e o).1 s.2))

theorem venture_picks {fails : Op → Bool} {mayFail : Op → Prop}
    (h : ∀ o, fails o = true → mayFail o) (e : Outside) :
    (venture fails e).Picks (observed mayFail) := by
  intro o s
  simp only [venture]
  split
  · exact ⟨Or.inr ⟨h o ‹_›, ⟨_, rfl⟩, rfl⟩, rfl⟩
  · exact ⟨Or.inl (s.1.effect_act e o), rfl⟩

/-- The bundle these examples promote: a manifest, and one file of evidence. -/
def stagedEvidence : Staged where
  manifest := some "\x7b\"files\": []\x7d"
  files := (∅ : Tree).insert "reports/external_acceptance/manifest_all.json" "new"

def accepting : Outside where
  sha := "0123456789abcdef0123456789abcdef01234567"
  loaded := ⟨some "0123456789abcdef0123456789abcdef01234567",
    ["reports/external_acceptance/manifest_all.json"], []⟩
  post := ⟨true, []⟩

/-- The digest of that manifest. -/
def evidenceDigest : Digest :=
  ⟨"4a95ea1226cabb898264b4a4018edf3e1881acbbc93050dc9384c94ec08c3ef9", by decide⟩

/-- The encodings, as far as these examples depend on them. -/
@[reducible] def evidenceEncoding : Encoding where
  sha256 := fun _ => evidenceDigest
  dumpsEvent := fun _ => ""
  dumpsTransaction := fun transaction => transaction.stagedManifestSha256

/-- A disk with evidence of an earlier run, and nothing going on. -/
def diskWithEvidence : Disk where
  dirs := fun dir =>
    if dir = canonicalDir then some ((∅ : Tree).insert "manifest_all.json" "old") else none
  journal := .absent
  ledger := .absent

end Kripto.Promotion
