/-
# What a loop collects into buckets

A loop goes through a list and puts every element into the bucket of its key: the first element
with a key opens the bucket, the later ones are merged into it (`Buckets.collect`).  In the end the
buckets are listed by their keys (`Buckets.sorted`).  A bucket knows its own key, its label.

* `sorted_collect`: if the keys never decrease along the list, this is what a loop makes that only
  looks at the newest bucket (`Buckets.pushAll`);
* `lookup_collect`, `mem_sorted_collect_append`: what is in a bucket, and when more elements leave
  it as it is;
* `gather_pushAll`: collecting the buckets by a coarser key is collecting the elements by it;
* `pushAll_map`: two rules collect alike if they open alike and merge alike what they meet.
-/
import Kripto.Effect.Totals
import Mathlib.Data.List.Sort

namespace Effect

/-- How elements make buckets. -/
structure Buckets (κ α β : Type) where
  key : α → κ
  label : β → κ
  opened : α → β
  merged : β → α → β
  label_opened : ∀ a, label (opened a) = key a
  label_merged : ∀ b a, label (merged b a) = label b

namespace Buckets

attribute [simp] label_opened label_merged

section

variable {κ α β : Type} [LinearOrder κ] (B : Buckets κ α β)

/-! ## 1. The table, and the newest bucket first -/

def add (t : Table κ β) (a : α) : Table κ β :=
  match t.lookup (B.key a) with
  | none => t.insert (B.key a) (B.opened a)
  | some b => t.insert (B.key a) (B.merged b a)

def collect (xs : List α) : Table κ β := xs.foldl B.add ∅

/-- `[buckets[k] for k in sorted(buckets)]`. -/
def sorted (t : Table κ β) : List β := (t.keys.insertionSort (· ≤ ·)).filterMap fun k => t.lookup k

/-- One element, if only the newest bucket is looked at. -/
def push (newest : List β) (a : α) : List β :=
  match newest with
  | [] => [B.opened a]
  | b :: older =>
    if B.label b = B.key a then B.merged b a :: older else B.opened a :: b :: older

def pushAll (newest : List β) (xs : List α) : List β := xs.foldl B.push newest

/-- The keys never decrease. -/
def Ordered (xs : List α) : Prop := xs.Pairwise fun a a' => B.key a ≤ B.key a'

/-- The labels decrease: the newest bucket is the first. -/
def Decreasing (newest : List β) : Prop := newest.Pairwise fun b b' => B.label b' < B.label b

/-- An element that falls into the newest bucket or behind it. -/
def Follows (newest : List β) (a : α) : Prop := ∀ b ∈ newest, B.label b ≤ B.key a

/-- The table holds just the buckets of the list. -/
structure Holds (t : Table κ β) (newest : List β) : Prop where
  decreasing : B.Decreasing newest
  lookup : ∀ k b, t.lookup k = some b ↔ b ∈ newest ∧ B.label b = k

variable {B} {newest older : List β} {a : α} {b : β} {xs ys : List α} {t : Table κ β}

theorem add_of_none (h : t.lookup (B.key a) = none) :
    B.add t a = t.insert (B.key a) (B.opened a) := by
  simp [add, h]

theorem add_of_some (h : t.lookup (B.key a) = some b) :
    B.add t a = t.insert (B.key a) (B.merged b a) := by
  simp [add, h]

theorem push_merged (h : B.label b = B.key a) :
    B.push (b :: older) a = B.merged b a :: older := by
  rw [push, if_pos h]

theorem push_opened (h : ∀ b ∈ newest, B.label b ≠ B.key a) :
    B.push newest a = B.opened a :: newest := by
  cases newest with
  | nil => rfl
  | cons b older => rw [push, if_neg (h b (by simp))]

/-- The two cases of an element that follows. -/
theorem follows_cases (hdec : B.Decreasing newest) (h : B.Follows newest a) :
    (∃ b older, newest = b :: older ∧ B.label b = B.key a) ∨
      ∀ b ∈ newest, B.label b < B.key a := by
  cases newest with
  | nil => exact .inr (by simp)
  | cons b older =>
    rcases (h b (by simp)).eq_or_lt with heq | hlt
    · exact .inl ⟨b, older, rfl, heq⟩
    · refine .inr fun b' hb' => ?_
      rcases List.mem_cons.mp hb' with rfl | hb'
      · exact hlt
      · exact ((List.pairwise_cons.mp hdec).1 b' hb').trans hlt

theorem decreasing_push (hdec : B.Decreasing newest) (h : B.Follows newest a) :
    B.Decreasing (B.push newest a) := by
  rcases follows_cases hdec h with ⟨b, older, rfl, heq⟩ | hlt
  · rw [push_merged heq]
    obtain ⟨hb, holder⟩ := List.pairwise_cons.mp hdec
    refine List.pairwise_cons.mpr ⟨fun b' hb' => ?_, holder⟩
    rw [label_merged]
    exact hb b' hb'
  · rw [push_opened fun b hb => (hlt b hb).ne]
    refine List.pairwise_cons.mpr ⟨fun b hb => ?_, hdec⟩
    rw [label_opened]
    exact hlt b hb

/-- What follows an element follows the buckets it leaves. -/
theorem follows_push {a' : α} (h : B.Follows newest a) (hle : B.key a ≤ B.key a') :
    B.Follows (B.push newest a) a' := by
  intro b hb
  cases newest with
  | nil =>
    rw [push, List.mem_singleton] at hb
    rw [hb, label_opened]
    exact hle
  | cons b₀ older =>
    rw [push] at hb
    split_ifs at hb with heq
    · rcases List.mem_cons.mp hb with rfl | hb
      · rw [label_merged, heq]
        exact hle
      · exact (h b (List.mem_cons_of_mem _ hb)).trans hle
    · rcases List.mem_cons.mp hb with rfl | hb
      · rw [label_opened]
        exact hle
      · exact (h b hb).trans hle

/-! ## 2. The table holds the pushed buckets -/

theorem Holds.add (h : B.Holds t newest) (hfollows : B.Follows newest a) :
    B.Holds (B.add t a) (B.push newest a) := by
  refine ⟨decreasing_push h.decreasing hfollows, fun k b => ?_⟩
  rcases follows_cases h.decreasing hfollows with ⟨b₀, older, rfl, heq⟩ | hlt
  · have hb₀ : t.lookup (B.key a) = some b₀ := (h.lookup _ _).mpr ⟨by simp, heq⟩
    have hold : ∀ b' ∈ older, B.label b' ≠ B.key a := by
      intro b' hb'
      rw [← heq]
      exact ((List.pairwise_cons.mp h.decreasing).1 b' hb').ne
    rw [push_merged heq, add_of_some hb₀]
    by_cases hk : k = B.key a
    · subst hk
      rw [AList.lookup_insert, Option.some.injEq, List.mem_cons]
      constructor
      · rintro rfl
        exact ⟨.inl rfl, by rw [label_merged, heq]⟩
      · rintro ⟨hb | hb, hlabel⟩
        · exact hb.symm
        · exact absurd hlabel (hold b hb)
    · rw [AList.lookup_insert_ne hk, h.lookup, List.mem_cons, List.mem_cons]
      constructor
      · rintro ⟨rfl | hb, hlabel⟩
        · exact absurd (hlabel.symm.trans heq) hk
        · exact ⟨.inr hb, hlabel⟩
      · rintro ⟨rfl | hb, hlabel⟩
        · rw [label_merged] at hlabel
          exact absurd (hlabel.symm.trans heq) hk
        · exact ⟨.inr hb, hlabel⟩
  · have hnone : t.lookup (B.key a) = none := by
      cases hlook : t.lookup (B.key a) with
      | none => rfl
      | some b₀ =>
        obtain ⟨hb₀, hlabel⟩ := (h.lookup _ _).mp hlook
        exact absurd hlabel (hlt b₀ hb₀).ne
    rw [push_opened fun b hb => (hlt b hb).ne, add_of_none hnone]
    by_cases hk : k = B.key a
    · subst hk
      rw [AList.lookup_insert, Option.some.injEq, List.mem_cons]
      constructor
      · rintro rfl
        exact ⟨.inl rfl, label_opened B a⟩
      · rintro ⟨hb | hb, hlabel⟩
        · exact hb.symm
        · exact absurd hlabel (hlt b hb).ne
    · rw [AList.lookup_insert_ne hk, h.lookup, List.mem_cons]
      constructor
      · rintro ⟨hb, hlabel⟩
        exact ⟨.inr hb, hlabel⟩
      · rintro ⟨rfl | hb, hlabel⟩
        · exact absurd (hlabel.symm.trans (label_opened B a)) hk
        · exact ⟨hb, hlabel⟩

/-- The run: whatever follows, in order, is added and pushed alike. -/
theorem Holds.addAll (h : B.Holds t newest) (hfollows : ∀ a ∈ xs, B.Follows newest a)
    (hxs : B.Ordered xs) : B.Holds (xs.foldl B.add t) (B.pushAll newest xs) := by
  induction xs generalizing t newest with
  | nil => exact h
  | cons a xs ih =>
    obtain ⟨ha, hxs⟩ := List.pairwise_cons.mp hxs
    refine ih (h.add (hfollows a (by simp))) (fun a' ha' => ?_) hxs
    exact follows_push (hfollows a (by simp)) (ha a' ha')

theorem holds_nil : B.Holds (∅ : Table κ β) [] := by
  refine ⟨List.Pairwise.nil, fun k b => ?_⟩
  simp

/-- Listed by their keys, the buckets of the table are those of the list, oldest first. -/
theorem Holds.sorted_eq (h : B.Holds t newest) : sorted t = newest.reverse := by
  have hlabels : (newest.reverse.map B.label).Pairwise (· < ·) := by
    rw [List.pairwise_map, List.pairwise_reverse]
    exact h.decreasing
  have hmem : ∀ k, k ∈ t.keys ↔ k ∈ newest.reverse.map B.label := by
    intro k
    rw [← AList.mem_keys, ← AList.lookup_isSome, Option.isSome_iff_exists]
    simp only [h.lookup, List.mem_map, List.mem_reverse]
  have hperm : t.keys.Perm (newest.reverse.map B.label) :=
    (List.perm_ext_iff_of_nodup t.keys_nodup (hlabels.imp ne_of_lt)).mpr hmem
  have hkeys : t.keys.insertionSort (· ≤ ·) = newest.reverse.map B.label := by
    refine ((List.perm_insertionSort _ _).trans hperm).eq_of_pairwise
      (fun a b _ _ hab hba => le_antisymm hab hba)
      (List.pairwise_insertionSort _ _) (hlabels.imp le_of_lt)
  have hlookup : ∀ b ∈ newest.reverse, t.lookup (B.label b) = some b := fun b hb =>
    (h.lookup _ _).mpr ⟨List.mem_reverse.mp hb, rfl⟩
  rw [sorted, hkeys, List.filterMap_map]
  calc newest.reverse.filterMap ((fun k => t.lookup k) ∘ B.label)
      = newest.reverse.filterMap some := List.filterMap_congr fun b hb => hlookup b hb
    _ = newest.reverse := List.filterMap_some

theorem holds_collect (h : B.Ordered xs) : B.Holds (B.collect xs) (B.pushAll [] xs) :=
  holds_nil.addAll (fun a _ b hb => by simp at hb) h

/-- **In order, the newest bucket is all there is to look at.** -/
theorem sorted_collect (h : B.Ordered xs) : sorted (B.collect xs) = (B.pushAll [] xs).reverse :=
  (holds_collect h).sorted_eq

/-! ## 3. What is in a bucket -/

/-- The elements with the key. -/
def under (B : Buckets κ α β) (k : κ) (xs : List α) : List α := xs.filter fun a => B.key a = k

theorem under_append (k : κ) (xs ys : List α) :
    B.under k (xs ++ ys) = B.under k xs ++ B.under k ys := List.filter_append ..

omit [LinearOrder κ] in
theorem label_foldl_merged (b : β) (xs : List α) :
    B.label (xs.foldl B.merged b) = B.label b := by
  induction xs generalizing b with
  | nil => rfl
  | cons a xs ih => rw [List.foldl_cons, ih, label_merged]

/-- The bucket of elements with one key. -/
def group (B : Buckets κ α β) (xs : List α) : Option β :=
  match xs with
  | [] => none
  | a :: rest => some (rest.foldl B.merged (B.opened a))

omit [LinearOrder κ] in
theorem group_append (h : B.group xs = some b) :
    B.group (xs ++ ys) = some (ys.foldl B.merged b) := by
  cases xs with
  | nil => cases h
  | cons a rest =>
    obtain rfl := Option.some.inj h
    simp [group]

/-- **The bucket of a key** is made of the elements with the key, whatever their order. -/
theorem lookup_collect (k : κ) (xs : List α) :
    (B.collect xs).lookup k = B.group (B.under k xs) := by
  induction xs using List.reverseRecOn with
  | nil => rfl
  | append_singleton xs a ih =>
    have hcollect : B.collect (xs ++ [a]) = B.add (B.collect xs) a := by
      simp [collect]
    rw [hcollect, under_append, add]
    by_cases hk : B.key a = k
    · have hlast : B.under k [a] = [a] := List.filter_eq_self.mpr (by simpa using hk)
      rw [hk, hlast]
      cases hxs : (B.collect xs).lookup k with
      | none =>
        have hnone : B.under k xs = [] := by
          cases hunder : B.under k xs with
          | nil => rfl
          | cons a₀ rest => rw [ih, hunder] at hxs; cases hxs
        rw [AList.lookup_insert, hnone]
        rfl
      | some b =>
        rw [AList.lookup_insert, group_append (ih.symm.trans hxs)]
        rfl
    · have hlast : B.under k [a] = [] := List.filter_eq_nil_iff.mpr (by simpa using hk)
      rw [hlast, List.append_nil, ← ih]
      cases (B.collect xs).lookup (B.key a) <;> rw [AList.lookup_insert_ne (Ne.symm hk)]

theorem label_group {k : κ} (h : B.group (B.under k xs) = some b) : B.label b = k := by
  cases hunder : B.under k xs with
  | nil => rw [hunder] at h; cases h
  | cons a rest =>
    have ha : a ∈ B.under k xs := by simp [hunder]
    rw [hunder] at h
    obtain rfl := Option.some.inj h
    rw [label_foldl_merged, label_opened]
    simpa using (List.mem_filter.mp ha).2

/-- A bucket is listed just when it is that of its label. -/
theorem mem_sorted_collect :
    b ∈ sorted (B.collect xs) ↔ B.group (B.under (B.label b) xs) = some b := by
  rw [sorted, List.mem_filterMap]
  constructor
  · rintro ⟨k, -, hk⟩
    rw [lookup_collect] at hk
    rw [label_group hk]
    exact hk
  · intro h
    rw [← lookup_collect] at h
    refine ⟨B.label b, ?_, h⟩
    rw [List.mem_insertionSort, ← AList.mem_keys, ← AList.lookup_isSome, h]
    rfl

/-- Every bucket has an element, -/
theorem exists_of_lookup {k : κ} (h : (B.collect xs).lookup k = some b) :
    ∃ a ∈ xs, B.key a = k := by
  rw [lookup_collect] at h
  cases hunder : B.under k xs with
  | nil => rw [hunder] at h; cases h
  | cons a rest =>
    have ha : a ∈ B.under k xs := by simp [hunder]
    obtain ⟨hxs, hkey⟩ := List.mem_filter.mp ha
    exact ⟨a, hxs, by simpa using hkey⟩

theorem exists_of_mem_sorted (h : b ∈ sorted (B.collect xs)) : ∃ a ∈ xs, B.key a = B.label b := by
  rw [mem_sorted_collect, ← lookup_collect] at h
  exact exists_of_lookup h

/-- and every element a listed bucket. -/
theorem exists_mem_sorted (h : a ∈ xs) : ∃ b ∈ sorted (B.collect xs), B.label b = B.key a := by
  have ha : a ∈ B.under (B.key a) xs := List.mem_filter.mpr ⟨h, by simp⟩
  cases hunder : B.under (B.key a) xs with
  | nil => rw [hunder] at ha; cases ha
  | cons a₀ rest =>
    have hgroup : B.group (B.under (B.key a) xs) = some (rest.foldl B.merged (B.opened a₀)) := by
      rw [hunder, group]
    have hlabel := label_group hgroup
    refine ⟨_, mem_sorted_collect.mpr ?_, hlabel⟩
    rw [hlabel]
    exact hgroup

/-- **A bucket is still listed** after more elements just when those with its label leave it as
it is. -/
theorem mem_sorted_collect_append (h : b ∈ sorted (B.collect xs)) :
    b ∈ sorted (B.collect (xs ++ ys)) ↔ (B.under (B.label b) ys).foldl B.merged b = b := by
  rw [mem_sorted_collect, under_append, group_append (mem_sorted_collect.mp h), Option.some.injEq]

/-! ## 4. What is summed up over the buckets -/

theorem sum_pushAll {A : Type} [AddCommMonoid A] {f : α → A} {g : β → A}
    (hopened : ∀ a, g (B.opened a) = f a) (hmerged : ∀ b a, g (B.merged b a) = g b + f a) :
    ((B.pushAll newest xs).map g).sum = (newest.map g).sum + (xs.map f).sum := by
  induction xs generalizing newest with
  | nil => simp [pushAll]
  | cons a xs ih =>
    have hpush : ((B.push newest a).map g).sum = (newest.map g).sum + f a := by
      cases newest with
      | nil => simp [push, hopened]
      | cons b older =>
        rw [push]
        split_ifs
        · rw [List.map_cons, List.sum_cons, hmerged, List.map_cons, List.sum_cons, add_right_comm]
        · rw [List.map_cons, List.sum_cons, hopened, add_comm]
    rw [pushAll, List.foldl_cons, ← pushAll, ih, hpush, List.map_cons, List.sum_cons, add_assoc]

theorem pushAll_concat (newest : List β) (xs : List α) (a : α) :
    B.pushAll newest (xs ++ [a]) = B.push (B.pushAll newest xs) a := List.foldl_append

/-- The newest buckets hold the last elements, -/
theorem exists_suffix_sum {A : Type} [AddCommMonoid A] {f : α → A} {g : β → A}
    (hopened : ∀ a, g (B.opened a) = f a) (hmerged : ∀ b a, g (B.merged b a) = g b + f a)
    (h : B.pushAll [] xs = newest ++ older) :
    ∃ part, part <:+ xs ∧ (newest.map g).sum = (part.map f).sum := by
  induction xs using List.reverseRecOn generalizing newest with
  | nil =>
    obtain ⟨rfl, -⟩ := List.nil_eq_append_iff.mp h
    exact ⟨[], List.nil_suffix, rfl⟩
  | append_singleton xs a ih =>
    cases newest with
    | nil => exact ⟨[], List.nil_suffix, rfl⟩
    | cons b rest =>
      have hlast : ∀ part : List α, part <:+ xs → part ++ [a] <:+ xs ++ [a] :=
        fun part ⟨before, hbefore⟩ => ⟨before, by rw [← hbefore, List.append_assoc]⟩
      rw [pushAll_concat] at h
      cases hbefore : B.pushAll [] xs with
      | nil =>
        rw [hbefore, push, List.cons_append, List.cons.injEq] at h
        obtain ⟨rfl, hrest⟩ := h
        obtain ⟨rfl, -⟩ := List.nil_eq_append_iff.mp hrest
        exact ⟨[a], List.suffix_append xs [a], by simp [hopened]⟩
      | cons b₀ before =>
        rw [hbefore, push] at h
        split_ifs at h with heq
        · obtain ⟨rfl, rfl⟩ := List.cons.inj h
          obtain ⟨part, hpart, hsum⟩ := @ih (b₀ :: rest) hbefore
          refine ⟨part ++ [a], hlast part hpart, ?_⟩
          rw [List.map_append, List.sum_append, ← hsum]
          simp [hmerged, add_right_comm]
        · obtain ⟨rfl, hrest⟩ := List.cons.inj h
          obtain ⟨part, hpart, hsum⟩ := @ih rest (hbefore.trans hrest)
          refine ⟨part ++ [a], hlast part hpart, ?_⟩
          rw [List.map_append, List.sum_append, ← hsum]
          simp [hopened, add_comm]

/-- and neighbours hold neighbours. -/
theorem exists_infix_sum {A : Type} [AddCommMonoid A] {f : α → A} {g : β → A} {newer : List β}
    (hopened : ∀ a, g (B.opened a) = f a) (hmerged : ∀ b a, g (B.merged b a) = g b + f a)
    (h : B.pushAll [] xs = newer ++ newest ++ older) :
    ∃ part, part <:+: xs ∧ (newest.map g).sum = (part.map f).sum := by
  induction xs using List.reverseRecOn generalizing newer with
  | nil =>
    obtain ⟨hnil, -⟩ := List.nil_eq_append_iff.mp h
    obtain ⟨-, rfl⟩ := List.append_eq_nil_iff.mp hnil
    exact ⟨[], List.nil_infix, rfl⟩
  | append_singleton xs a ih =>
    cases newer with
    | nil =>
      obtain ⟨part, hpart, hsum⟩ := exists_suffix_sum hopened hmerged h
      exact ⟨part, hpart.isInfix, hsum⟩
    | cons b rest =>
      have hmore : xs <:+: xs ++ [a] := (List.prefix_append xs [a]).isInfix
      rw [pushAll_concat] at h
      cases hbefore : B.pushAll [] xs with
      | nil =>
        rw [hbefore, push] at h
        obtain ⟨-, hrest⟩ := List.cons.inj h
        obtain ⟨hnil, -⟩ := List.nil_eq_append_iff.mp hrest
        obtain ⟨-, rfl⟩ := List.append_eq_nil_iff.mp hnil
        exact ⟨[], List.nil_infix, rfl⟩
      | cons b₀ before =>
        rw [hbefore, push] at h
        split_ifs at h with heq
        · obtain ⟨-, hrest⟩ := List.cons.inj h
          obtain ⟨part, hpart, hsum⟩ := @ih (b₀ :: rest)
            (hbefore.trans (congrArg (b₀ :: ·) hrest))
          exact ⟨part, hpart.trans hmore, hsum⟩
        · obtain ⟨-, hrest⟩ := List.cons.inj h
          obtain ⟨part, hpart, hsum⟩ := @ih rest (hbefore.trans hrest)
          exact ⟨part, hpart.trans hmore, hsum⟩

end

/-- **Two rules collect alike**, seen through two maps, if they open alike and merge alike wherever
a bucket meets an element. -/
theorem pushAll_map {κ α β α' β' : Type} [LinearOrder κ] {B : Buckets κ α β}
    {B' : Buckets κ α' β'} {f : α → α'} {g : β → β'} {xs : List α}
    (hkey : ∀ a, B'.key (f a) = B.key a) (hlabel : ∀ b, B'.label (g b) = B.label b)
    (hopened : ∀ a, g (B.opened a) = B'.opened (f a))
    (hmerged : ∀ ys a b (older : List β), ys ++ [a] <+: xs →
      B'.pushAll [] (ys.map f) = g b :: older.map g → g (B.merged b a) = B'.merged (g b) (f a)) :
    (B.pushAll [] xs).map g = B'.pushAll [] (xs.map f) := by
  induction xs using List.reverseRecOn with
  | nil => rfl
  | append_singleton xs a ih =>
    have hbefore := ih fun ys a' b older hys =>
      hmerged ys a' b older (hys.trans (List.prefix_append xs [a]))
    rw [pushAll_concat, List.map_append, List.map_singleton, pushAll_concat, ← hbefore]
    cases hall : B.pushAll [] xs with
    | nil => simp [push, hopened]
    | cons b older =>
      rw [hall, List.map_cons] at hbefore
      simp only [List.map_cons, push, hlabel, hkey]
      split_ifs
      · rw [List.map_cons, hmerged xs a b older (List.prefix_refl _) hbefore.symm]
      · rw [List.map_cons, List.map_cons, hopened]

/-! ## 5. Buckets of buckets -/

section

variable {κ α β γ : Type} [LinearOrder κ] {A : Buckets κ α β} {B : Buckets κ α γ}
  {C : Buckets κ β γ} {newest : List β} {coarse : List γ} {a : α} {b : β} {xs : List α}

/-- On the element, collecting into fine buckets (`A`) and these into coarse ones (`C`) does what
collecting into coarse ones (`B`) does. -/
structure Nests (A : Buckets κ α β) (B : Buckets κ α γ) (C : Buckets κ β γ) (a : α) : Prop where
  key : ∀ b, A.label b = A.key a → C.key b = B.key a
  opened : C.opened (A.opened a) = B.opened a
  merged : ∀ c, C.merged c (A.opened a) = B.merged c a
  opened_merged : ∀ b, C.opened (A.merged b a) = B.merged (C.opened b) a
  merged_merged : ∀ c b, C.merged c (A.merged b a) = B.merged (C.merged c b) a

/-- The buckets of buckets, newest first on both levels. -/
def gather (C : Buckets κ β γ) (newest : List β) : List γ :=
  newest.foldr (fun b coarse => C.push coarse b) []

theorem gather_eq_pushAll (newest : List β) : C.gather newest = C.pushAll [] newest.reverse := by
  rw [gather, pushAll, List.foldl_reverse]

theorem push_push_opened (hlabel : ∀ c, C.label c = B.label c) (h : Nests A B C a) :
    C.push coarse (A.opened a) = B.push coarse a := by
  have hkey : C.key (A.opened a) = B.key a := h.key _ (label_opened A a)
  cases coarse with
  | nil => rw [push, push, h.opened]
  | cons c older => rw [push, push, hkey, hlabel, h.merged, h.opened]

theorem push_push_merged (hlabel : ∀ c, C.label c = B.label c) (h : Nests A B C a)
    (hb : A.label b = A.key a) :
    C.push coarse (A.merged b a) = B.push (C.push coarse b) a := by
  have hkey : C.key (A.merged b a) = B.key a := h.key _ ((label_merged A b a).trans hb)
  have hkey' : C.key b = B.key a := h.key b hb
  have hnew : B.label (C.opened b) = B.key a := by
    rw [← hlabel, label_opened, hkey']
  cases coarse with
  | nil => rw [push, push, push, if_pos hnew, h.opened_merged]
  | cons c older =>
    rw [push, push, hkey, hkey', hlabel]
    split_ifs with heq
    · rw [push_merged (by rw [← hlabel, label_merged, hlabel, heq]), h.merged_merged]
    · rw [push_merged hnew, h.opened_merged]

/-- One element, on both levels. -/
theorem gather_push (hlabel : ∀ c, C.label c = B.label c) (h : Nests A B C a) :
    C.gather (A.push newest a) = B.push (C.gather newest) a := by
  cases newest with
  | nil => exact (push_push_opened hlabel h : C.push [] (A.opened a) = B.push [] a)
  | cons b older =>
    by_cases hb : A.label b = A.key a
    · rw [push_merged hb]
      exact push_push_merged hlabel h hb
    · rw [push, if_neg hb]
      exact push_push_opened hlabel h

/-- **Buckets of buckets** are buckets. -/
theorem gather_pushAll (hlabel : ∀ c, C.label c = B.label c) (h : ∀ a ∈ xs, Nests A B C a) :
    C.gather (A.pushAll newest xs) = B.pushAll (C.gather newest) xs := by
  induction xs generalizing newest with
  | nil => rfl
  | cons a xs ih =>
    rw [pushAll, List.foldl_cons, ← pushAll, ih fun a' ha' => h a' (List.mem_cons_of_mem a ha'),
      gather_push hlabel (h a (by simp))]
    rfl

end

end Buckets

end Effect
