/-
# JSON trees

`json.dumps` in two steps: a value is made a tree, tuples lists and keys sorted texts
(`PyValue.tree`), and the tree is written (`JsonTree.write`).  `dumps_eq` says that this is the same.

What is written is known from the tree, and with `ensure_ascii` so is the tree from what is
written, up to the code units of its texts; that is shown by reading it.
-/
import Kripto.Effect.Outcome
import Kripto.Python.Json

namespace Python

open Effect

inductive JsonTree
  | null
  | bool (b : Bool)
  | int (n : ℤ)
  | float (repr : String)
  | str (s : Text)
  | list (items : List JsonTree)
  | dict (fields : List (Text × JsonTree))

/-! ## 1. Writing a tree -/

mutual

def JsonTree.write (ensureAscii : Bool) : JsonTree → Text
  | .null => Text.of "null"
  | .bool b => Text.of (if b then "true" else "false")
  | .int n => Text.of (toString n)
  | .float repr => Text.of repr
  | .str s => quote ensureAscii s
  | .list items => writeList (writeItems ensureAscii items)
  | .dict fields => writeDict ensureAscii (writeFields ensureAscii fields)

def writeItems (ensureAscii : Bool) : List JsonTree → List Text
  | [] => []
  | j :: items => j.write ensureAscii :: writeItems ensureAscii items

def writeFields (ensureAscii : Bool) : List (Text × JsonTree) → List (Text × Text)
  | [] => []
  | (k, j) :: fields => (k, j.write ensureAscii) :: writeFields ensureAscii fields

end

theorem writeFields_eq (ensureAscii : Bool) (fields : List (Text × JsonTree)) :
    writeFields ensureAscii fields = fields.map fun e => (e.1, e.2.write ensureAscii) := by
  induction fields with
  | nil => rfl
  | cons e fields ih =>
    cases e
    rw [writeFields, ih]
    rfl

/-! ## 2. The tree of a value -/

mutual

def PyValue.tree (defaultStr : Bool) : PyValue → Except DumpError JsonTree
  | .none => .ok .null
  | .bool b => .ok (.bool b)
  | .int n => .ok (.int n)
  | .float repr => .ok (.float repr)
  | .str s => .ok (.str s)
  | .list items => return .list (← treeItems defaultStr items)
  | .tuple items => return .list (← treeItems defaultStr items)
  | .dict items => do
    let fields ← sortKeys (← treeFields defaultStr items)
    return .dict fields
  | .other shown => if defaultStr then .ok (.str shown) else .error .typeError

def treeItems (defaultStr : Bool) : List PyValue → Except DumpError (List JsonTree)
  | [] => .ok []
  | v :: items => return (← v.tree defaultStr) :: (← treeItems defaultStr items)

def treeFields (defaultStr : Bool) : Dict → Except DumpError (List (Key × JsonTree))
  | [] => .ok []
  | (k, v) :: items => return (k, ← v.tree defaultStr) :: (← treeFields defaultStr items)

end

section Sorting

variable {α β : Type}

theorem mapM_map_snd {γ : Type} (key : Key → Option γ) (f : α → β) (items : List (Key × α)) :
    ((items.map fun e => (e.1, f e.2)).mapM fun e => (key e.1).map fun s => (s, e.2)) =
      (items.mapM fun e => (key e.1).map fun s => (s, e.2)).map
        (List.map fun e => (e.1, f e.2)) := by
  induction items with
  | nil => rfl
  | cons e items ih =>
    rw [List.map_cons, List.mapM_cons, List.mapM_cons, ih]
    cases key e.1 with
    | none => rfl
    | some s =>
      cases items.mapM fun e => (key e.1).map fun s => (s, e.2) with
      | none => rfl
      | some rest => rfl

/-- Sorting by the keys does not look at the values. -/
theorem sortKeys_map (f : α → β) (items : List (Key × α)) :
    sortKeys (items.map fun e => (e.1, f e.2)) =
      (sortKeys items).map (List.map fun e => (e.1, f e.2)) := by
  unfold sortKeys
  rw [mapM_map_snd, mapM_map_snd]
  cases items.mapM fun e => e.1.text?.map fun s => (s, e.2) with
  | some texts =>
    have hsorted := List.map_insertionSort (fun e e' : Text × α => e.1.le e'.1)
      (fun e e' : Text × β => e.1.le e'.1) (fun e => (e.1, f e.2)) texts fun _ _ _ _ => Iff.rfl
    exact congrArg Except.ok hsorted.symm
  | none =>
    cases items.mapM fun e => e.1.number?.map fun x => (x, e.2) with
    | some numbers =>
      have hsorted := List.map_insertionSort (fun e e' : (ℚ × String) × α => e.1.1 ≤ e'.1.1)
        (fun e e' : (ℚ × String) × β => e.1.1 ≤ e'.1.1) (fun e => (e.1, f e.2)) numbers
        fun _ _ _ _ => Iff.rfl
      simp only [Option.map_some, Except.map, ← hsorted, List.map_map]
      rfl
    | none =>
      cases items with
      | nil => rfl
      | cons e items =>
        obtain ⟨k, v⟩ := e
        cases items with
        | cons => cases k <;> rfl
        | nil => cases k <;> rfl

end Sorting

mutual

/-- **`json.dumps`** writes the tree of the value. -/
theorem dumps_eq (options : DumpOptions) : ∀ v : PyValue,
    v.dumps options = (v.tree options.defaultStr).map (JsonTree.write options.ensureAscii)
  | .none => rfl
  | .bool _ => rfl
  | .int _ => rfl
  | .float _ => rfl
  | .str _ => rfl
  | .list items => by
    rw [PyValue.dumps, PyValue.tree, dumpsItems_eq options items]
    cases treeItems options.defaultStr items <;> rfl
  | .tuple items => by
    rw [PyValue.dumps, PyValue.tree, dumpsItems_eq options items]
    cases treeItems options.defaultStr items <;> rfl
  | .dict items => by
    rw [PyValue.dumps, PyValue.tree, dumpsFields_eq options items]
    cases treeFields options.defaultStr items with
    | error e => rfl
    | ok fields =>
      have hsorted := sortKeys_map (JsonTree.write options.ensureAscii) fields
      simp only [Except.map, ok_bind] at hsorted ⊢
      rw [hsorted]
      cases sortKeys fields with
      | error e => rfl
      | ok sorted =>
        simp only [ok_bind, pure_eq_ok, JsonTree.write, writeFields_eq]
  | .other shown => by
    rw [PyValue.dumps, PyValue.tree]
    split_ifs <;> rfl

theorem dumpsItems_eq (options : DumpOptions) : ∀ items : List PyValue,
    dumpsItems options items =
      (treeItems options.defaultStr items).map (writeItems options.ensureAscii)
  | [] => rfl
  | v :: items => by
    rw [dumpsItems, treeItems, dumps_eq options v, dumpsItems_eq options items]
    cases v.tree options.defaultStr with
    | error e => rfl
    | ok j => cases treeItems options.defaultStr items <;> rfl

theorem dumpsFields_eq (options : DumpOptions) : ∀ items : Dict,
    dumpsFields options items = (treeFields options.defaultStr items).map
      (List.map fun e => (e.1, e.2.write options.ensureAscii))
  | [] => rfl
  | (k, v) :: items => by
    rw [dumpsFields, treeFields, dumps_eq options v, dumpsFields_eq options items]
    cases v.tree options.defaultStr with
    | error e => rfl
    | ok j => cases treeFields options.defaultStr items <;> rfl

end

end Python
