/-
# JSON with its keys in order

`json.dumps(.., sort_keys=True)`: the keys of every object are in order.  A value that is written
so and read back is the sorted one.  In an object whose keys are distinct the same is found,
sorted (`lookup_sortedFields`).
-/
import Kripto.Campaign.Payload
import Mathlib.Data.List.Sort
import Mathlib.Data.String.Basic

namespace Kripto.Campaign

/-! ## 1. Sorting -/

/-- The order of the keys. -/
def keyLE {ν : Type} (e e' : String × ν) : Prop := e.1 ≤ e'.1

instance {ν : Type} : DecidableRel (keyLE (ν := ν)) :=
  fun e e' => inferInstanceAs (Decidable (e.1 ≤ e'.1))

instance {ν : Type} : Std.Total (keyLE (ν := ν)) := ⟨fun e e' => le_total e.1 e'.1⟩

instance {ν : Type} : IsTrans (String × ν) keyLE := ⟨fun _ _ _ h h' => le_trans (α := String) h h'⟩

/-- Fields in the order of their keys. -/
def byKey {ν : Type} (fields : List (String × ν)) : List (String × ν) := fields.insertionSort keyLE

mutual

/-- The value with the keys of all its objects in order. -/
def Json.sorted : Json → Json
  | .arr items => .arr (sortedItems items)
  | .obj fields => .obj (byKey (sortedValues fields))
  | v => v

def sortedItems : List Json → List Json
  | [] => []
  | v :: items => v.sorted :: sortedItems items

def sortedValues : List (String × Json) → List (String × Json)
  | [] => []
  | (k, v) :: fields => (k, v.sorted) :: sortedValues fields

end

def sortedFields (fields : Payload) : Payload := byKey (sortedValues fields)

@[simp] theorem Json.sorted_str (s : String) : (Json.str s).sorted = .str s := rfl

@[simp] theorem Json.sorted_int (n : ℤ) : (Json.int n).sorted = .int n := rfl

@[simp] theorem Json.sorted_bool (b : Bool) : (Json.bool b).sorted = .bool b := rfl

@[simp] theorem Json.sorted_obj (fields : Payload) :
    (Json.obj fields).sorted = .obj (sortedFields fields) := rfl

theorem sortedValues_eq (fields : Payload) :
    sortedValues fields = fields.map fun e => (e.1, e.2.sorted) := by
  induction fields with
  | nil => simp [sortedValues]
  | cons e fields ih => simp [sortedValues, ih]

/-! ## 2. Looking up -/

/-- The same is found in a list of other order, if its keys are distinct. -/
theorem lookup_perm {ν : Type} {fields fields' : List (String × ν)} (h : fields.Perm fields')
    (hkeys : (fields.map Prod.fst).Nodup) (k : String) : fields.lookup k = fields'.lookup k := by
  induction h with
  | nil => rfl
  | cons e _ ih =>
    rw [List.map_cons, List.nodup_cons] at hkeys
    rw [List.lookup_cons, List.lookup_cons, ih hkeys.2]
  | swap e e' fields =>
    obtain ⟨k₁, v₁⟩ := e
    obtain ⟨k₂, v₂⟩ := e'
    have hne : k₂ ≠ k₁ := by
      rintro rfl
      simp at hkeys
    simp only [List.lookup_cons]
    cases h₁ : k == k₁ with
    | false => rfl
    | true =>
      cases h₂ : k == k₂ with
      | false => rfl
      | true => exact absurd ((eq_of_beq h₂).symm.trans (eq_of_beq h₁)) hne
  | trans h h' ih ih' =>
    rw [ih hkeys, ih' ((h.map Prod.fst).nodup_iff.mp hkeys)]

theorem lookup_mapValues {ν ν' : Type} (f : ν → ν') (fields : List (String × ν)) (k : String) :
    (fields.map fun e => (e.1, f e.2)).lookup k = (fields.lookup k).map f := by
  induction fields with
  | nil => rfl
  | cons e fields ih =>
    rw [List.map_cons, List.lookup_cons, List.lookup_cons, ih]
    split <;> rfl

theorem perm_byKey {ν : Type} (fields : List (String × ν)) : (byKey fields).Perm fields :=
  List.perm_insertionSort _ _

theorem keys_sortedFields (fields : Payload) :
    ((sortedFields fields).map Prod.fst).Perm (fields.map Prod.fst) := by
  refine ((perm_byKey _).map _).trans ?_
  rw [sortedValues_eq, List.map_map]
  exact .refl _

/-- **What is found** in an object is found in the sorted one, sorted. -/
theorem lookup_sortedFields {fields : Payload} (h : (fields.map Prod.fst).Nodup) (k : String) :
    (sortedFields fields).lookup k = (fields.lookup k).map Json.sorted := by
  have hkeys := (keys_sortedFields fields).nodup_iff.mpr h
  have hperm : (sortedFields fields).Perm (sortedValues fields) := perm_byKey _
  rw [lookup_perm hperm hkeys, sortedValues_eq, lookup_mapValues]

end Kripto.Campaign
