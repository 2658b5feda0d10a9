/-
# Components

A set is grown over a list, round after round, until a round adds nothing (`saturate`).  What it
reaches is what is linked to it, through the list (`mem_saturate_iff`).  Taking the elements of the
list one after the other, and leaving out those that have been reached, gives its components
(`blocks`).

* `mem_blocks_iff`, `pairwise_disjoint_blocks`: the blocks are the classes of the elements, each
  class once;
* `blocks_perm`: the order of the list only orders the blocks.
-/
import Mathlib.Data.Finset.Card
import Mathlib.Data.List.Pairwise
import Mathlib.Data.List.Perm.Basic
import Mathlib.Logic.Relation

namespace Effect

variable {α : Type} [DecidableEq α]

/-! ## 1. Growing a set -/

section Grow

variable (link : α → α → Bool)

/-- One round: what is linked to the set is added at once, and the rest of the round knows of it. -/
def round : List α → Finset α → Finset α × Bool
  | [], s => (s, false)
  | b :: bs, s =>
    if b ∈ s then round bs s
    else if ∃ x ∈ s, link x b then ((round bs (insert b s)).1, true)
    else round bs s

variable {link} {xs : List α} {s : Finset α}

theorem subset_round : s ⊆ (round link xs s).1 := by
  induction xs generalizing s with
  | nil => exact Finset.Subset.refl s
  | cons b bs ih =>
    rw [round]
    split_ifs
    · exact ih
    · exact (Finset.subset_insert b s).trans ih
    · exact ih

/-- A round keeps what every addition keeps. -/
theorem round_keeps {P : α → Prop} (hadd : ∀ x b, P x → b ∈ xs → link x b → P b)
    (hs : ∀ x ∈ s, P x) : ∀ x ∈ (round link xs s).1, P x := by
  induction xs generalizing s with
  | nil => exact hs
  | cons b bs ih =>
    have hrest : ∀ x b', P x → b' ∈ bs → link x b' → P b' := fun x b' hx hb' =>
      hadd x b' hx (List.mem_cons_of_mem b hb')
    rw [round]
    split_ifs with hmem hlinked
    · exact ih hrest hs
    · refine ih hrest fun x hx => ?_
      rcases Finset.mem_insert.mp hx with rfl | hx
      · obtain ⟨y, hy, hlink⟩ := hlinked
        exact hadd y x (hs y hy) List.mem_cons_self hlink
      · exact hs x hx
    · exact ih hrest hs

/-- A round that changes nothing has found nothing to add. -/
theorem round_unchanged (h : (round link xs s).2 = false) :
    (round link xs s).1 = s ∧ ∀ x ∈ s, ∀ b ∈ xs, link x b → b ∈ s := by
  induction xs with
  | nil => exact ⟨rfl, fun _ _ _ hb => nomatch hb⟩
  | cons b bs ih =>
    rw [round] at h ⊢
    split_ifs at h ⊢ with hmem hlinked
    · obtain ⟨hsame, hclosed⟩ := ih h
      refine ⟨hsame, fun x hx b' hb' hlink => ?_⟩
      rcases List.mem_cons.mp hb' with rfl | hb'
      · exact hmem
      · exact hclosed x hx b' hb' hlink
    · obtain ⟨hsame, hclosed⟩ := ih h
      refine ⟨hsame, fun x hx b' hb' hlink => ?_⟩
      rcases List.mem_cons.mp hb' with rfl | hb'
      · exact absurd ⟨x, hx, hlink⟩ hlinked
      · exact hclosed x hx b' hb' hlink

/-- A round that changes something has added an element of the list. -/
theorem round_changed (h : (round link xs s).2 = true) :
    ∃ b ∈ xs, b ∉ s ∧ b ∈ (round link xs s).1 := by
  induction xs with
  | nil => exact nomatch h
  | cons b bs ih =>
    rw [round] at h ⊢
    split_ifs at h ⊢ with hmem hlinked
    · obtain ⟨b', hb', hnew⟩ := ih h
      exact ⟨b', List.mem_cons_of_mem b hb', hnew⟩
    · exact ⟨b, List.mem_cons_self, hmem, subset_round (Finset.mem_insert_self b s)⟩
    · obtain ⟨b', hb', hnew⟩ := ih h
      exact ⟨b', List.mem_cons_of_mem b hb', hnew⟩

variable (link xs) in
/-- **Rounds** until one changes nothing. -/
def saturate (s : Finset α) : Finset α :=
  if (round link xs s).2 = true then saturate (round link xs s).1 else (round link xs s).1
termination_by (xs.toFinset \ s).card
decreasing_by
  rename_i hchanged
  obtain ⟨b, hb, hnew, hround⟩ := round_changed hchanged
  refine Finset.card_lt_card (Finset.ssubset_iff_subset_ne.mpr ⟨?_, fun heq => ?_⟩)
  · exact Finset.sdiff_subset_sdiff (Finset.Subset.refl _) subset_round
  · have hleft : b ∈ xs.toFinset \ s := Finset.mem_sdiff.mpr ⟨List.mem_toFinset.mpr hb, hnew⟩
    rw [← heq] at hleft
    exact (Finset.mem_sdiff.mp hleft).2 hround

theorem subset_saturate : s ⊆ saturate link xs s := by
  fun_induction saturate link xs s with
  | case1 s hchanged ih => exact subset_round.trans ih
  | case2 s hchanged => exact subset_round

theorem saturate_keeps {P : α → Prop} (hadd : ∀ x b, P x → b ∈ xs → link x b → P b)
    (hs : ∀ x ∈ s, P x) : ∀ x ∈ saturate link xs s, P x := by
  fun_induction saturate link xs s with
  | case1 s hchanged ih => exact ih (round_keeps hadd hs)
  | case2 s hchanged => exact round_keeps hadd hs

/-- Nothing can be added at the end. -/
theorem saturate_closed :
    ∀ x ∈ saturate link xs s, ∀ b ∈ xs, link x b → b ∈ saturate link xs s := by
  fun_induction saturate link xs s with
  | case1 s hchanged ih => exact ih
  | case2 s hchanged =>
    obtain ⟨hsame, hclosed⟩ := round_unchanged (Bool.not_eq_true _ ▸ hchanged)
    rw [hsame]
    exact hclosed

variable (link xs) in
/-- A link to an element of the list. -/
def Linked (x b : α) : Prop := b ∈ xs ∧ link x b

/-- **What is reached** from the set, through the list. -/
theorem mem_saturate_iff {b : α} :
    b ∈ saturate link xs s ↔ ∃ a ∈ s, Relation.ReflTransGen (Linked link xs) a b := by
  constructor
  · refine saturate_keeps (P := fun b => ∃ a ∈ s, Relation.ReflTransGen (Linked link xs) a b) ?_
      (fun x hx => ⟨x, hx, .refl⟩) b
    rintro x b ⟨a, ha, hreach⟩ hb hlink
    exact ⟨a, ha, hreach.tail ⟨hb, hlink⟩⟩
  · rintro ⟨a, ha, hreach⟩
    induction hreach with
    | refl => exact subset_saturate ha
    | tail _ hlink ih => exact saturate_closed _ ih _ hlink.1 hlink.2

/-- The order of the list is of no matter. -/
theorem saturate_perm {xs' : List α} (h : xs.Perm xs') :
    saturate link xs' s = saturate link xs s := by
  have hlinked : Linked link xs' = Linked link xs := by
    funext x b
    rw [Linked, Linked, h.mem_iff]
  ext b
  rw [mem_saturate_iff, mem_saturate_iff, hlinked]

end Grow

/-! ## 2. Blocks -/

/-- The blocks that `grow` makes of the elements, each left out that has been reached. -/
def blocks (grow : α → Finset α) : List α → Finset α → List (Finset α)
  | [], _ => []
  | a :: as, seen =>
    if a ∈ seen then blocks grow as seen else grow a :: blocks grow as (seen ∪ grow a)

/-- `grow` gives each element of the list its class. -/
structure Classes (grow : α → Finset α) (xs : List α) : Prop where
  self : ∀ a ∈ xs, a ∈ grow a
  same : ∀ a ∈ xs, ∀ b ∈ xs, ∀ c, c ∈ grow a → c ∈ grow b → grow a = grow b

section Blocks

variable {grow : α → Finset α} {xs as : List α} {seen block : Finset α}

/-- **A block is the class of an element** that has not been seen, and every such class is one. -/
theorem mem_blocks_iff (h : Classes grow xs) (has : ∀ a ∈ as, a ∈ xs) :
    block ∈ blocks grow as seen ↔ ∃ a ∈ as, a ∉ seen ∧ block = grow a := by
  induction as generalizing seen with
  | nil => exact iff_of_false (fun hmem => nomatch hmem) fun ⟨_, ha, _⟩ => nomatch ha
  | cons a as ih =>
    have hrest : ∀ a ∈ as, a ∈ xs := fun a' ha' => has a' (List.mem_cons_of_mem a ha')
    have ha : a ∈ xs := has a List.mem_cons_self
    rw [blocks]
    split_ifs with hmem
    · rw [ih hrest]
      constructor
      · rintro ⟨a', ha', hnew, hblock⟩
        exact ⟨a', List.mem_cons_of_mem a ha', hnew, hblock⟩
      · rintro ⟨a', ha', hnew, hblock⟩
        rcases List.mem_cons.mp ha' with rfl | ha'
        · exact absurd hmem hnew
        · exact ⟨a', ha', hnew, hblock⟩
    · rw [List.mem_cons, ih hrest]
      constructor
      · rintro (hblock | ⟨a', ha', hnew, hblock⟩)
        · exact ⟨a, List.mem_cons_self, hmem, hblock⟩
        · exact ⟨a', List.mem_cons_of_mem a ha', fun hseen => hnew (Finset.mem_union_left _ hseen),
            hblock⟩
      · rintro ⟨a', ha', hnew, hblock⟩
        by_cases hclass : a' ∈ grow a
        · have ha'' : a' ∈ xs := has a' ha'
          rw [h.same a' ha'' a ha a' (h.self a' ha'') hclass] at hblock
          exact .inl hblock
        · rcases List.mem_cons.mp ha' with rfl | ha'
          · exact absurd (h.self a' ha) hclass
          · refine .inr ⟨a', ha', fun hunion => ?_, hblock⟩
            exact (Finset.mem_union.mp hunion).elim hnew hclass

/-- What has been seen is not in the blocks to come, if it was seen by classes. -/
theorem disjoint_seen (h : Classes grow xs) (has : ∀ a ∈ as, a ∈ xs)
    (hseen : ∀ a ∈ xs, ∀ c ∈ grow a, c ∈ seen → a ∈ seen) (hblock : block ∈ blocks grow as seen) :
    Disjoint seen block := by
  obtain ⟨a, ha, hnew, rfl⟩ := (mem_blocks_iff h has).mp hblock
  rw [Finset.disjoint_left]
  exact fun c hc hclass => hnew (hseen a (has a ha) c hclass hc)

theorem pairwise_disjoint_of_seen (h : Classes grow xs) (has : ∀ a ∈ as, a ∈ xs)
    (hseen : ∀ a ∈ xs, ∀ c ∈ grow a, c ∈ seen → a ∈ seen) :
    (blocks grow as seen).Pairwise Disjoint := by
  induction as generalizing seen with
  | nil => exact .nil
  | cons a as ih =>
    have hrest : ∀ a ∈ as, a ∈ xs := fun a' ha' => has a' (List.mem_cons_of_mem a ha')
    have ha : a ∈ xs := has a List.mem_cons_self
    rw [blocks]
    split_ifs with hmem
    · exact ih hrest hseen
    · have hseen' : ∀ a' ∈ xs, ∀ c ∈ grow a', c ∈ seen ∪ grow a → a' ∈ seen ∪ grow a := by
        intro a' ha' c hc hunion
        rcases Finset.mem_union.mp hunion with hc' | hc'
        · exact Finset.mem_union_left _ (hseen a' ha' c hc hc')
        · rw [← h.same a' ha' a ha c hc hc']
          exact Finset.mem_union_right _ (h.self a' ha')
      refine List.pairwise_cons.mpr ⟨fun block hblock => ?_, ih hrest hseen'⟩
      exact (disjoint_seen h hrest hseen' hblock).mono_left Finset.subset_union_right

/-- **No two blocks meet.** -/
theorem pairwise_disjoint_blocks (h : Classes grow xs) : (blocks grow xs ∅).Pairwise Disjoint :=
  pairwise_disjoint_of_seen h (fun _ ha => ha) fun _ _ _ _ hc => absurd hc (Finset.notMem_empty _)

theorem nodup_blocks (h : Classes grow xs) : (blocks grow xs ∅).Nodup := by
  refine (pairwise_disjoint_blocks h).imp_of_mem fun hblock _ hdisjoint heq => ?_
  obtain ⟨a, ha, -, rfl⟩ := (mem_blocks_iff h fun _ ha => ha).mp hblock
  rw [← heq, disjoint_self] at hdisjoint
  exact absurd (h.self a ha) (hdisjoint ▸ Finset.notMem_empty a)

/-- **The order of the list** only orders the blocks. -/
theorem blocks_perm (h : Classes grow xs) {xs' : List α} (hperm : xs.Perm xs') :
    (blocks grow xs ∅).Perm (blocks grow xs' ∅) := by
  have h' : Classes grow xs' :=
    ⟨fun a ha => h.self a (hperm.mem_iff.mpr ha),
      fun a ha b hb => h.same a (hperm.mem_iff.mpr ha) b (hperm.mem_iff.mpr hb)⟩
  rw [List.perm_ext_iff_of_nodup (nodup_blocks h) (nodup_blocks h')]
  intro block
  rw [mem_blocks_iff h fun _ ha => ha, mem_blocks_iff h' fun _ ha => ha]
  simp only [hperm.mem_iff]

end Blocks

end Effect
