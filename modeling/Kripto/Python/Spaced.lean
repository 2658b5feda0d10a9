/-
# `json.dumps` with its own separators

Without `separators` there is a space behind each comma and each colon.

* `read_writeSpaced`: what is written so is read as the same tree;
* `printable_writeSpaced`: and it is on one line.
-/
import Kripto.Python.Lines

namespace Python

open Loads

/-! ## 1. Writing -/

/-- A space in front of every part but the first. -/
def afterSpace : List Text → List Text
  | [] => []
  | part :: parts => part :: parts.map (.scalar ' ' :: ·)

mutual

/-- The text of a tree. -/
def JsonTree.writeSpaced : JsonTree → Text
  | .list items => writeList (afterSpace (writeSpacedItems items))
  | .dict fields =>
    Text.of "\x7b" ++ commas (afterSpace (writeSpacedFields fields)) ++ Text.of "\x7d"
  | j => j.write true

def writeSpacedItems : List JsonTree → List Text
  | [] => []
  | j :: items => j.writeSpaced :: writeSpacedItems items

def writeSpacedFields : List (Text × JsonTree) → List Text
  | [] => []
  | (k, j) :: fields =>
    (quote true k ++ .scalar ':' :: .scalar ' ' :: j.writeSpaced) :: writeSpacedFields fields

end

theorem writeSpacedItems_eq (items : List JsonTree) :
    writeSpacedItems items = items.map JsonTree.writeSpaced := by
  induction items with
  | nil => rfl
  | cons j items ih => rw [writeSpacedItems, ih, List.map_cons]

theorem writeSpacedFields_eq (fields : List (Text × JsonTree)) :
    writeSpacedFields fields =
      fields.map fun e => quote true e.1 ++ .scalar ':' :: .scalar ' ' :: e.2.writeSpaced := by
  induction fields with
  | nil => rfl
  | cons e fields ih =>
    cases e
    rw [writeSpacedFields, ih, List.map_cons]

/-- **`json.dumps(v, sort_keys=True)`.** -/
def PyValue.dumpsSpaced (v : PyValue) : Except DumpError Text :=
  (v.tree false).map JsonTree.writeSpaced

theorem head_afterSpace (parts : List Text) : (afterSpace parts).head? = parts.head? := by
  cases parts <;> rfl

theorem forall₂_afterSpace {α : Type} {R : Text → α → Prop}
    (hspace : ∀ {part a}, R part a → R (.scalar ' ' :: part) a) {parts : List Text} {as : List α}
    (h : List.Forall₂ R parts as) : List.Forall₂ R (afterSpace parts) as := by
  cases h with
  | nil => exact .nil
  | cons hpart hparts =>
    refine .cons hpart ?_
    rw [List.forall₂_map_left_iff]
    exact hparts.imp fun _ _ => hspace

/-! ## 2. Reading -/

section Reader

variable [PyFloatRepr]

theorem readValue_space (n : ℕ) (t : Text) : readValue n (.scalar ' ' :: t) = readValue n t := by
  cases n <;> rfl

theorem readFields_space (n : ℕ) (t : Text) : readFields n (.scalar ' ' :: t) = readFields n t := by
  cases n <;> rfl

theorem Reads.space {t : Text} {j : JsonTree} (h : Reads t j) : Reads (.scalar ' ' :: t) j := by
  intro n rest hrest hn
  rw [List.cons_append, readValue_space]
  exact h n rest hrest (Nat.lt_of_succ_lt hn)

theorem ReadsField.space {part : Text} {e : Text × JsonTree} (h : ReadsField part e) :
    ReadsField (.scalar ' ' :: part) e := by
  intro n rest hn
  rw [List.cons_append, List.cons_append, readFields_space, readFields_space]
  exact h n rest (Nat.le_of_succ_le hn)

/-- **A tree** is read as it was written, its texts joined. -/
theorem reads_writeSpaced (j : JsonTree) (h : j.FloatsRead) :
    Begins j.writeSpaced ∧ Reads j.writeSpaced j.joined := by
  induction j using JsonTree.induct with
  | null => exact isRead .null h
  | bool b => exact isRead (.bool b) h
  | int n => exact isRead (.int n) h
  | float repr => exact isRead (.float repr) h
  | str s => exact isRead (.str s) h
  | list items ih =>
    rw [JsonTree.FloatsRead, JsonTree.floats, JsonTree.floatsItems_eq] at h
    have hitems : ∀ j ∈ items, Begins j.writeSpaced ∧ Reads j.writeSpaced j.joined :=
      fun j hj => ih j hj fun repr hrepr => h repr (List.mem_flatMap_of_mem hj hrepr)
    have hparts : List.Forall₂ Reads (items.map JsonTree.writeSpaced)
        (items.map JsonTree.joined) := by
      rw [List.forall₂_map_left_iff, List.forall₂_map_right_iff, List.forall₂_same]
      exact fun j hj => (hitems j hj).2
    have hbegins : ∀ part ∈ (afterSpace (items.map JsonTree.writeSpaced)).head?, Begins part := by
      rw [head_afterSpace]
      intro part hpart
      obtain ⟨j, hj, rfl⟩ := List.mem_map.mp (List.mem_of_mem_head? hpart)
      exact (hitems j hj).1
    rw [JsonTree.writeSpaced, writeSpacedItems_eq, JsonTree.joined, JsonTree.joinedItems_eq]
    exact ⟨⟨'[', _, rfl, by decide⟩, reads_list (forall₂_afterSpace Reads.space hparts) hbegins⟩
  | dict fields ih =>
    rw [JsonTree.FloatsRead, JsonTree.floats, JsonTree.floatsFields_eq] at h
    have hfields : ∀ e ∈ fields, Reads e.2.writeSpaced e.2.joined :=
      fun e he => (ih e he fun repr hrepr => h repr (List.mem_flatMap.mpr ⟨e, he, hrepr⟩)).2
    have hparts : List.Forall₂ ReadsField
        (fields.map fun e => quote true e.1 ++ .scalar ':' :: .scalar ' ' :: e.2.writeSpaced)
        (fields.map fun e => (e.1.joined, e.2.joined)) := by
      rw [List.forall₂_map_left_iff, List.forall₂_map_right_iff, List.forall₂_same]
      exact fun e he => readsField_quote (readString_quote e.1) (hfields e he).space
    have hbegins : ∀ part ∈ (afterSpace (fields.map fun e =>
        quote true e.1 ++ .scalar ':' :: .scalar ' ' :: e.2.writeSpaced)).head?, Begins part := by
      rw [head_afterSpace]
      intro part hpart
      obtain ⟨e, -, rfl⟩ := List.mem_map.mp (List.mem_of_mem_head? hpart)
      exact begins_quote true e.1 _
    rw [JsonTree.writeSpaced, writeSpacedFields_eq, JsonTree.joined, JsonTree.joinedFields_eq]
    exact ⟨⟨'\x7b', _, rfl, by decide⟩,
      reads_dict (forall₂_afterSpace ReadsField.space hparts) hbegins⟩

theorem read_writeSpaced {j : JsonTree} (h : j.FloatsRead) :
    Loads.read j.writeSpaced = some j.joined := (reads_writeSpaced j h).2.read

/-! ## 3. On one line -/

omit [PyFloatRepr] in
theorem printable_afterSpace {parts : List Text} (h : ∀ part ∈ parts, part.Printable) :
    ∀ part ∈ afterSpace parts, part.Printable := by
  cases parts with
  | nil => exact h
  | cons part parts =>
    obtain ⟨hpart, hparts⟩ := List.forall_mem_cons.mp h
    refine List.forall_mem_cons.mpr ⟨hpart, List.forall_mem_map.mpr fun part hpart => ?_⟩
    exact (hparts part hpart).cons (by decide)

theorem printable_writeSpaced {j : JsonTree} (h : j.FloatsRead) : j.writeSpaced.Printable := by
  induction j using JsonTree.induct with
  | null => exact printable_write h
  | bool b => exact printable_write h
  | int n => exact printable_write h
  | float repr => exact printable_write h
  | str s => exact printable_write h
  | list items ih =>
    rw [JsonTree.FloatsRead, JsonTree.floats, JsonTree.floatsItems_eq] at h
    rw [JsonTree.writeSpaced, writeSpacedItems_eq, writeList]
    have hopen : (Text.of "[").Printable := printable_chars (by decide)
    have hclose : (Text.of "]").Printable := printable_chars (by decide)
    refine (hopen.append (printable_commas (printable_afterSpace ?_))).append hclose
    rw [List.forall_mem_map]
    exact fun j hj => ih j hj fun repr hrepr => h repr (List.mem_flatMap_of_mem hj hrepr)
  | dict fields ih =>
    rw [JsonTree.FloatsRead, JsonTree.floats, JsonTree.floatsFields_eq] at h
    rw [JsonTree.writeSpaced, writeSpacedFields_eq]
    have hopen : (Text.of "\x7b").Printable := printable_chars (by decide)
    have hclose : (Text.of "\x7d").Printable := printable_chars (by decide)
    refine (hopen.append (printable_commas (printable_afterSpace ?_))).append hclose
    rw [List.forall_mem_map]
    intro e he
    have hvalue := ih e he fun repr hrepr => h repr (List.mem_flatMap.mpr ⟨e, he, hrepr⟩)
    exact (printable_quote e.1).append ((hvalue.cons (by decide)).cons (by decide))

end Reader

end Python
