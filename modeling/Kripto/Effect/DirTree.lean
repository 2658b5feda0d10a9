/-
# Directory trees

A tree says what stands under a path, which is a list of names.  Files are put into it one after the
other, each with the directories above it.  A file in the place of a directory, or a directory in
the place of a file, is in the way; so is a path that the system cannot hold.

* `putAll_eq`: files can be put into a new directory just if no path is a proper beginning of
  another; then the tree holds, under each path, what was put there last.
-/
import Mathlib.Data.List.Infix
import Mathlib.Data.List.Basic
import Mathlib.Logic.Function.Basic

namespace Effect

inductive Node (A : Type) : Type
  | dir
  | file (a : A)
  deriving DecidableEq

abbrev DirTree (N A : Type) : Type := List N → Option (Node A)

namespace DirTree

variable {N A : Type} [DecidableEq N]

/-! ## 1. Operations -/

/-- A new directory. -/
def empty : DirTree N A
  | [] => some .dir
  | _ => none

/-- The directories `qs`, each of which may exist. -/
def mkdirs (t : DirTree N A) : List (List N) → Option (DirTree N A)
  | [] => some t
  | q :: qs => match t q with
    | some (.file _) => none
    | some .dir => t.mkdirs qs
    | none => mkdirs (Function.update t q (some .dir)) qs

/-- Write a file, in a directory that exists. -/
def write (t : DirTree N A) (p : List N) (a : A) : Option (DirTree N A) :=
  match t p with
  | some .dir => none
  | _ => some (Function.update t p (some (.file a)))

/-- The paths of the directories above, from the top. -/
def above (p : List N) : List (List N) := p.inits.filter (· ≠ p)

/-- Write a file and make the directories above it. -/
def put (allows : List N → Bool) (t : DirTree N A) (x : List N × A) : Option (DirTree N A) :=
  if allows x.1 then (t.mkdirs (above x.1)).bind (·.write x.1 x.2) else none

def putAll (allows : List N → Bool) (t : DirTree N A) (xs : List (List N × A)) :
    Option (DirTree N A) :=
  xs.foldlM (put allows) t

/-! ## 2. What they build -/

/-- What was put under a path last. -/
def content (xs : List (List N × A)) (p : List N) : Option A := xs.reverse.lookup p

/-- The files, and the directories above them. -/
def built (xs : List (List N × A)) : DirTree N A := fun p =>
  match content xs p with
  | some a => some (.file a)
  | none => if p = [] ∨ ∃ x ∈ xs, p <+: x.1 then some .dir else none

/-- No path is a proper beginning of another. -/
def Apart (xs : List (List N × A)) : Prop :=
  ∀ x ∈ xs, ∀ y ∈ xs, x.1 <+: y.1 → x.1 = y.1

instance (xs : List (List N × A)) : Decidable (Apart xs) :=
  inferInstanceAs (Decidable (∀ x ∈ xs, ∀ y ∈ xs, x.1 <+: y.1 → x.1 = y.1))

section Lemmas

variable {t : DirTree N A} {xs ys : List (List N × A)} {p q : List N} {a : A}

omit [DecidableEq N] in
theorem Apart.left (h : Apart (xs ++ ys)) : Apart xs := fun x hx y hy =>
  h x (List.mem_append_left ys hx) y (List.mem_append_left ys hy)

theorem content_append (x : List N × A) (p : List N) :
    content (xs ++ [x]) p = if p = x.1 then some x.2 else content xs p := by
  obtain ⟨q, b⟩ := x
  rw [content, List.reverse_append, List.reverse_singleton, List.singleton_append, content,
    List.lookup_cons]
  by_cases hp : p = q
  · simp [hp]
  · have hbeq : (p == q) = false := by simpa using hp
    simp [hbeq, hp]

theorem isSome_content_iff : (content xs p).isSome ↔ ∃ x ∈ xs, x.1 = p := by
  induction xs using List.reverseRecOn with
  | nil => simp [content]
  | append_singleton xs x ih =>
    rw [content_append]
    by_cases hp : p = x.1
    · simp only [hp, if_true, Option.isSome_some, true_iff]
      exact ⟨x, by simp, rfl⟩
    · rw [if_neg hp, ih]
      constructor
      · rintro ⟨y, hy, rfl⟩
        exact ⟨y, by simp [hy], rfl⟩
      · rintro ⟨y, hy, rfl⟩
        rcases List.mem_append.mp hy with hold | hnew
        · exact ⟨y, hold, rfl⟩
        · exact absurd (by rw [List.mem_singleton.mp hnew]) hp

theorem content_eq_none_iff : content xs p = none ↔ ∀ x ∈ xs, x.1 ≠ p := by
  rw [← Option.not_isSome_iff_eq_none, isSome_content_iff]
  simp only [not_exists, not_and, ne_eq]

theorem mem_of_content (h : content xs p = some a) : (p, a) ∈ xs := by
  induction xs using List.reverseRecOn with
  | nil => simp [content] at h
  | append_singleton xs x ih =>
    rw [content_append] at h
    by_cases hp : p = x.1
    · rw [if_pos hp] at h
      obtain rfl : x.2 = a := Option.some.inj h
      simp [hp]
    · rw [if_neg hp] at h
      exact List.mem_append_left _ (ih h)

@[simp] theorem mem_above : q ∈ above p ↔ q <+: p ∧ q ≠ p := by
  simp [above]

theorem built_nil : (built [] : DirTree N A) = empty := by
  funext p
  cases p <;> simp [built, content, empty]

/-- A file stands where one was put. -/
theorem built_eq_file_iff : built xs p = some (.file a) ↔ content xs p = some a := by
  unfold built
  cases content xs p with
  | some b => simp
  | none =>
    simp only [reduceCtorEq, iff_false]
    split <;> simp

theorem mkdirs_of_no_file {qs : List (List N)} (h : ∀ q ∈ qs, ∀ a, t q ≠ some (.file a)) :
    t.mkdirs qs = some fun q => if q ∈ qs then some .dir else t q := by
  induction qs generalizing t with
  | nil => simp [mkdirs]
  | cons q qs ih =>
    have hrest : ∀ q ∈ qs, ∀ a, t q ≠ some (.file a) := fun q' hq' =>
      h q' (List.mem_cons_of_mem q hq')
    rw [mkdirs]
    cases hq : t q with
    | none =>
      simp only
      rw [ih]
      · congr 1
        funext q'
        by_cases hmem : q' ∈ qs
        · simp [hmem]
        · by_cases heq : q' = q
          · simp [heq]
          · simp [hmem, heq]
      · intro q' hq' a
        by_cases heq : q' = q
        · simp [heq]
        · simpa [heq] using hrest q' hq' a
    | some node =>
      cases node with
      | file a => exact absurd hq (h q List.mem_cons_self a)
      | dir =>
        simp only
        rw [ih hrest]
        congr 1
        funext q'
        by_cases heq : q' = q
        · simp [heq, hq]
        · simp [heq]

theorem mkdirs_of_file {qs : List (List N)} (hq : q ∈ qs) (hfile : t q = some (.file a)) :
    t.mkdirs qs = none := by
  induction qs generalizing t with
  | nil => cases hq
  | cons q' qs ih =>
    rw [mkdirs]
    rcases List.mem_cons.mp hq with rfl | hmem
    · simp [hfile]
    · cases hq' : t q' with
      | none =>
        have hne : q ≠ q' := by
          rintro rfl
          rw [hfile] at hq'
          cases hq'
        exact ih hmem (by simpa [hne] using hfile)
      | some node =>
        cases node with
        | file b => rfl
        | dir => exact ih hmem hfile

theorem write_of_ne_dir (h : t p ≠ some .dir) :
    t.write p a = some (Function.update t p (some (.file a))) := by
  unfold write
  split
  · rename_i hdir
    exact absurd hdir h
  · rfl

theorem built_ne_dir (hp : p ≠ []) (h : ∀ x ∈ xs, p <+: x.1 → p = x.1) :
    built xs p ≠ some .dir := by
  unfold built
  cases hcontent : content xs p with
  | some a => simp
  | none =>
    have hnone : ¬ (p = [] ∨ ∃ x ∈ xs, p <+: x.1) := by
      rintro (hnil | ⟨x, hx, hbegins⟩)
      · exact hp hnil
      · exact content_eq_none_iff.mp hcontent x hx (h x hx hbegins).symm
    simp only [if_neg hnone]
    exact nofun

theorem built_eq_dir (hcontent : content xs p = none) {x : List N × A} (hx : x ∈ xs)
    (hbegins : p <+: x.1) : built xs p = some .dir := by
  unfold built
  simp only [hcontent]
  exact if_pos (Or.inr ⟨x, hx, hbegins⟩)

/-! ## 3. One file more -/

variable {allows : List N → Bool} {x : List N × A}

theorem built_append (q : List N) : built (xs ++ [x]) q =
    if q = x.1 then some (.file x.2)
    else if q ∈ above x.1 ∧ content xs q = none then some .dir else built xs q := by
  unfold built
  rw [content_append]
  by_cases hq : q = x.1
  · simp [hq]
  · simp only [hq, if_false]
    cases hcontent : content xs q with
    | some a => simp
    | none =>
      by_cases hbegins : q <+: x.1
      · simp [hbegins, hq]
      · have hsame : (∃ y ∈ xs ++ [x], q <+: y.1) ↔ ∃ y ∈ xs, q <+: y.1 := by
          simp [or_and_right, exists_or, hbegins]
        simp only [hsame, mem_above, hbegins, false_and, if_false]

theorem put_of_apart (hx : x.1 ≠ []) (hallows : allows x.1 = true) (h : Apart (xs ++ [x])) :
    put allows (built xs) x = some (built (xs ++ [x])) := by
  have hcontent : ∀ q ∈ above x.1, content xs q = none := by
    refine fun q hq => content_eq_none_iff.mpr fun y hy hyq => ?_
    obtain ⟨hbegins, hne⟩ := mem_above.mp hq
    rw [← hyq] at hbegins hne
    exact hne (h y (by simp [hy]) x (by simp) hbegins)
  have hnofile : ∀ q ∈ above x.1, ∀ a, built xs q ≠ some (.file a) := by
    intro q hq a hfile
    rw [built_eq_file_iff, hcontent q hq] at hfile
    cases hfile
  have hself : x.1 ∉ above x.1 := by simp
  have hnodir : built xs x.1 ≠ some .dir :=
    built_ne_dir hx fun y hy => h x (by simp) y (by simp [hy])
  rw [put, if_pos hallows, mkdirs_of_no_file hnofile, Option.bind_some,
    write_of_ne_dir (by simpa only [hself, if_false] using hnodir)]
  congr 1
  funext q
  rw [built_append]
  by_cases hq : q = x.1
  · subst hq
    simp
  · by_cases habove : q ∈ above x.1
    · simp only [ne_eq, hq, not_false_iff, Function.update_of_ne, habove, if_true,
        hcontent q habove, and_self, if_false]
    · simp only [ne_eq, hq, not_false_iff, Function.update_of_ne, habove, if_false, false_and]

theorem put_of_not_apart (hxs : Apart xs) (h : ¬ Apart (xs ++ [x])) :
    put allows (built xs) x = none := by
  unfold put
  split
  swap
  · rfl
  by_cases hfile : ∃ q ∈ above x.1, ∃ a, built xs q = some (.file a)
  · obtain ⟨q, hq, a, ha⟩ := hfile
    rw [mkdirs_of_file hq ha, Option.bind_none]
  push Not at hfile
  rw [mkdirs_of_no_file hfile, Option.bind_some]
  -- No file is in the way, so it is a directory that is.
  have hdir : ∃ y ∈ xs, x.1 <+: y.1 ∧ x.1 ≠ y.1 := by
    by_contra hno
    push Not at hno
    refine h fun y hy z hz hbegins => ?_
    rcases List.mem_append.mp hy with hyold | hynew <;>
      rcases List.mem_append.mp hz with hzold | hznew
    · exact hxs y hyold z hzold hbegins
    · rw [List.mem_singleton.mp hznew] at hbegins ⊢
      by_contra hne
      have hsome : (content xs y.1).isSome := isSome_content_iff.mpr ⟨y, hyold, rfl⟩
      obtain ⟨a, ha⟩ := Option.isSome_iff_exists.mp hsome
      exact hfile y.1 (mem_above.mpr ⟨hbegins, hne⟩) a (built_eq_file_iff.mpr ha)
    · rw [List.mem_singleton.mp hynew] at hbegins ⊢
      exact hno z hzold hbegins
    · rw [List.mem_singleton.mp hynew, List.mem_singleton.mp hznew]
  obtain ⟨y, hy, hbegins, hne⟩ := hdir
  have hcontent : content xs x.1 = none := by
    refine content_eq_none_iff.mpr fun z hz hzx => ?_
    rw [← hzx] at hbegins hne
    exact hne (hxs z hz y hy hbegins)
  have hself : x.1 ∉ above x.1 := by simp
  simp only [write, hself, if_false, built_eq_dir hcontent hy hbegins]

/-! ## 4. All files -/

theorem putAll_built (hxs : Apart xs) (hys : ∀ y ∈ ys, y.1 ≠ []) :
    putAll allows (built xs) ys =
      if Apart (xs ++ ys) ∧ ∀ y ∈ ys, allows y.1 = true then some (built (xs ++ ys))
      else none := by
  induction ys generalizing xs with
  | nil => simp [putAll, hxs]
  | cons y ys ih =>
    have happend : xs ++ y :: ys = (xs ++ [y]) ++ ys := by simp
    rw [putAll, List.foldlM_cons, happend]
    by_cases hallows : allows y.1 = true
    · by_cases happart : Apart (xs ++ [y])
      · rw [put_of_apart (hys y List.mem_cons_self) hallows happart]
        simp only [Option.bind_eq_bind, Option.bind_some]
        refine (ih happart fun z hz => hys z (List.mem_cons_of_mem y hz)).trans ?_
        simp only [List.forall_mem_cons, hallows, true_and]
      · rw [put_of_not_apart hxs happart, if_neg fun h => happart h.1.left]
        rfl
    · have hnone : put allows (built xs) y = none := if_neg hallows
      rw [hnone, if_neg fun h => hallows (h.2 y List.mem_cons_self)]
      rfl

/-- **Files in a new directory.** -/
theorem putAll_eq (hys : ∀ y ∈ ys, y.1 ≠ []) : putAll allows empty ys =
    if Apart ys ∧ ∀ y ∈ ys, allows y.1 = true then some (built ys) else none := by
  have h : putAll allows (built []) ys = _ := putAll_built (fun _ hx => by cases hx) hys
  rwa [built_nil] at h

end Lemmas

end DirTree

end Effect
