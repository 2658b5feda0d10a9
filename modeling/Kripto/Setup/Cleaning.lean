/-
# The cleaning of a configuration

`services/setup_wizard.py`, `_clean`: from the objects of a JSON value, at any depth, the keys are
dropped whose names are those of secrets.

* `isSecretKey_iff`: these are the keys that contain one of four words;
* `not_secret_of_mem_keys_clean`, `clean_clean`, `at_clean`: none of them is left, cleaning twice is
  cleaning once, and what stands behind other keys stays there, cleaned.
-/
import Kripto.Python.JsonTree
import Mathlib.Data.List.Infix

namespace Kripto.Setup

open Python

/-! ## 1. `str.casefold` -/

/-- What a code point beyond ASCII is folded to. -/
class PyCaseFolding where
  fold : CodePoint → Text

section Folding

variable [PyCaseFolding]

def foldChar : CodePoint → Text
  | .scalar c => if c.toNat < 128 then [.scalar c.toLower] else PyCaseFolding.fold (.scalar c)
  | c => PyCaseFolding.fold c

def casefold (t : Text) : Text := t.flatMap foldChar

/-! ## 2. `_clean` -/

def SECRET_KEYS : List String :=
  ["api_key", "api_secret", "secret", "token", "password", "telegram_bot_token",
    "binance_api_key", "binance_api_secret"]

def SECRET_WORDS : List String := ["secret", "password", "token", "api_key"]

def isSecretKey (k : Text) : Bool :=
  (SECRET_KEYS.map Text.of).contains (casefold k) ||
    SECRET_WORDS.any fun x => Text.of x <:+: casefold k

mutual

def clean : JsonTree → JsonTree
  | .dict fields => .dict (cleanFields fields)
  | .list items => .list (cleanItems items)
  | v => v

def cleanItems : List JsonTree → List JsonTree
  | [] => []
  | v :: items => clean v :: cleanItems items

def cleanFields : List (Text × JsonTree) → List (Text × JsonTree)
  | [] => []
  | (k, v) :: fields =>
    if isSecretKey k then cleanFields fields else (k, clean v) :: cleanFields fields

end

end Folding

/-! ## 3. Keys and places -/

mutual

/-- The keys of the objects in a value. -/
def keysOf : JsonTree → List Text
  | .dict fields => keysOfFields fields
  | .list items => keysOfItems items
  | _ => []

def keysOfItems : List JsonTree → List Text
  | [] => []
  | v :: items => keysOf v ++ keysOfItems items

def keysOfFields : List (Text × JsonTree) → List Text
  | [] => []
  | (k, v) :: fields => k :: (keysOf v ++ keysOfFields fields)

end

/-- One step down into a value. -/
inductive Place
  | key (k : Text)
  | index (i : ℕ)

/-- What stands at the end of a path. -/
def valueAt : JsonTree → List Place → Option JsonTree
  | v, [] => some v
  | .dict fields, .key k :: path => (fields.lookup k).bind fun v => valueAt v path
  | .list items, .index i :: path => items[i]?.bind fun v => valueAt v path
  | _, _ :: _ => none

section Lemmas

variable [PyCaseFolding] {k : Text}

def Place.isSecret : Place → Bool
  | .key k => isSecretKey k
  | .index _ => false

/-! ## 4. What is left -/

/-- The list of whole names adds nothing to the words. -/
theorem isSecretKey_iff : isSecretKey k = true ↔
    ∃ word ∈ SECRET_WORDS, Text.of word <:+: casefold k := by
  rw [isSecretKey, Bool.or_eq_true, List.any_eq_true]
  simp only [decide_eq_true_eq]
  refine or_iff_right_of_imp fun hname => ?_
  obtain ⟨name, hname, heq⟩ := List.mem_map.mp (List.contains_iff_mem.mp hname)
  have hword : ∀ name ∈ SECRET_KEYS, ∃ word ∈ SECRET_WORDS, Text.of word <:+: Text.of name := by
    decide
  rw [← heq]
  exact hword name hname

theorem cleanItems_eq (items : List JsonTree) : cleanItems items = items.map clean := by
  induction items with
  | nil => rfl
  | cons v items ih => rw [cleanItems, ih, List.map_cons]

theorem lookup_cleanFields (fields : List (Text × JsonTree)) :
    (cleanFields fields).lookup k =
      if isSecretKey k then none else (fields.lookup k).map clean := by
  induction fields with
  | nil => simp [cleanFields]
  | cons e fields ih =>
    obtain ⟨k', v⟩ := e
    rw [cleanFields, List.lookup_cons]
    by_cases hk : k = k'
    · subst hk
      split_ifs with hsecret
      · rw [ih, if_pos hsecret]
      · rw [List.lookup_cons]
        simp
    · have hbeq : (k == k') = false := beq_eq_false_iff_ne.mpr hk
      split_ifs with hsecret' hsecret hsecret
      · rw [ih, if_pos hsecret]
      · rw [ih, if_neg hsecret, hbeq]
      · rw [List.lookup_cons, hbeq, ih, if_pos hsecret]
      · rw [List.lookup_cons, hbeq, ih, if_neg hsecret]

mutual

/-- **No key of a secret** is left. -/
theorem not_secret_of_mem_keys_clean : ∀ v : JsonTree, ∀ k ∈ keysOf (clean v),
    isSecretKey k = false
  | .dict fields, k, hk => not_secret_of_mem_keys_cleanFields fields k hk
  | .list items, k, hk => not_secret_of_mem_keys_cleanItems items k hk
  | .null, _, hk => by cases hk
  | .bool _, _, hk => by cases hk
  | .int _, _, hk => by cases hk
  | .float _, _, hk => by cases hk
  | .str _, _, hk => by cases hk

theorem not_secret_of_mem_keys_cleanItems : ∀ items : List JsonTree,
    ∀ k ∈ keysOfItems (cleanItems items), isSecretKey k = false
  | [], _, hk => by cases hk
  | v :: items, k, hk => by
    rcases List.mem_append.mp hk with hk | hk
    · exact not_secret_of_mem_keys_clean v k hk
    · exact not_secret_of_mem_keys_cleanItems items k hk

theorem not_secret_of_mem_keys_cleanFields : ∀ fields : List (Text × JsonTree),
    ∀ k ∈ keysOfFields (cleanFields fields), isSecretKey k = false
  | [], _, hk => by cases hk
  | (k', v) :: fields, k, hk => by
    rw [cleanFields] at hk
    split_ifs at hk with hsecret
    · exact not_secret_of_mem_keys_cleanFields fields k hk
    · rcases List.mem_cons.mp hk with rfl | hk
      · exact Bool.eq_false_of_not_eq_true hsecret
      rcases List.mem_append.mp hk with hk | hk
      · exact not_secret_of_mem_keys_clean v k hk
      · exact not_secret_of_mem_keys_cleanFields fields k hk

end

mutual

/-- **Cleaning twice** is cleaning once. -/
theorem clean_clean : ∀ v : JsonTree, clean (clean v) = clean v
  | .dict fields => congrArg JsonTree.dict (cleanFields_cleanFields fields)
  | .list items => congrArg JsonTree.list (cleanItems_cleanItems items)
  | .null => rfl
  | .bool _ => rfl
  | .int _ => rfl
  | .float _ => rfl
  | .str _ => rfl

theorem cleanItems_cleanItems : ∀ items : List JsonTree,
    cleanItems (cleanItems items) = cleanItems items
  | [] => rfl
  | v :: items => by
    rw [cleanItems, cleanItems, clean_clean v, cleanItems_cleanItems items]

theorem cleanFields_cleanFields : ∀ fields : List (Text × JsonTree),
    cleanFields (cleanFields fields) = cleanFields fields
  | [] => rfl
  | (k, v) :: fields => by
    rw [cleanFields]
    split_ifs with hsecret
    · exact cleanFields_cleanFields fields
    · rw [cleanFields, if_neg hsecret, clean_clean v, cleanFields_cleanFields fields]

end

/-- **Every other key is kept**: what a path without such a key leads to is there, cleaned. -/
theorem at_clean (path : List Place) (v : JsonTree) : valueAt (clean v) path =
    if path.any Place.isSecret then none else (valueAt v path).map clean := by
  induction path generalizing v with
  | nil => simp [valueAt]
  | cons place path ih =>
    cases v with
    | dict fields =>
      cases place with
      | key k =>
        rw [clean, valueAt, valueAt, lookup_cleanFields, List.any_cons, Place.isSecret]
        by_cases hsecret : isSecretKey k = true
        · simp [hsecret]
        · rw [if_neg hsecret, Bool.eq_false_of_not_eq_true hsecret, Bool.false_or]
          cases fields.lookup k with
          | none => simp
          | some v => exact ih v
      | index i => simp [clean, valueAt]
    | list items =>
      cases place with
      | key k => simp [clean, valueAt]
      | index i =>
        rw [clean, valueAt, valueAt, cleanItems_eq, List.getElem?_map, List.any_cons,
          Place.isSecret, Bool.false_or]
        cases items[i]? with
        | none => simp
        | some v => exact ih v
    | null => simp [clean, valueAt]
    | bool b => simp [clean, valueAt]
    | int n => simp [clean, valueAt]
    | float repr => simp [clean, valueAt]
    | str s => simp [clean, valueAt]

end Lemmas

end Kripto.Setup
