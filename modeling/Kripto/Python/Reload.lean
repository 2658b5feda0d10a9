/-
# What is loaded, dumped again

`json.loads` makes dictionaries of objects, and of two fields with one key the later one stays
(`dictOf`).  The tree that `json.dumps` makes of a loaded value is the tree that was loaded, with
such fields dropped and the others sorted (`value_tree`).

So the text that is written again is the text that was read just when no dictionary in it loses a
field or changes the order of its keys.  The keys are sorted before they are written, as numbers or
as texts with surrogate pairs, and after they are read, as texts without (`PyValue.Reloads`).
-/
import Kripto.Effect.Sorting
import Kripto.Python.Units
import Kripto.Python.ReadBack

namespace Python

open Effect

/-! ## 1. Dictionaries -/

section Fields

variable {α β : Type} {k : Text} {v : α} {d pairs : List (Text × α)}

/-- `d[k] = v`. -/
def setKey (k : Text) (v : α) : List (Text × α) → List (Text × α)
  | [] => [(k, v)]
  | (k', v') :: d => if k' = k then (k, v) :: d else (k', v') :: setKey k v d

/-- `dict(pairs)`. -/
def dictOf (pairs : List (Text × α)) : List (Text × α) :=
  pairs.foldl (fun d e => setKey e.1 e.2 d) []

theorem mem_setKey {e : Text × α} (he : e ∈ setKey k v d) : e = (k, v) ∨ e ∈ d := by
  induction d with
  | nil => exact .inl (List.mem_singleton.mp he)
  | cons e' d ih =>
    rw [setKey] at he
    split_ifs at he with hk
    · exact (List.mem_cons.mp he).imp_right (List.mem_cons_of_mem _)
    · rcases List.mem_cons.mp he with rfl | he
      · exact .inr List.mem_cons_self
      · exact (ih he).imp_right (List.mem_cons_of_mem _)

theorem nodup_setKey (h : (d.map Prod.fst).Nodup) : ((setKey k v d).map Prod.fst).Nodup := by
  induction d with
  | nil => exact List.nodup_singleton k
  | cons e d ih =>
    rw [List.map_cons, List.nodup_cons] at h
    rw [setKey]
    split_ifs with hk
    · rw [List.map_cons, List.nodup_cons, ← hk]
      exact h
    · rw [List.map_cons, List.nodup_cons]
      refine ⟨fun hmem => ?_, ih h.2⟩
      obtain ⟨e', he', hfst⟩ := List.mem_map.mp hmem
      rcases mem_setKey he' with rfl | he'
      · exact hk hfst.symm
      · exact h.1 (hfst ▸ List.mem_map_of_mem he')

theorem setKey_new (h : k ∉ d.map Prod.fst) : setKey k v d = d ++ [(k, v)] := by
  induction d with
  | nil => rfl
  | cons e d ih =>
    rw [List.map_cons, List.mem_cons, not_or] at h
    rw [setKey, if_neg (Ne.symm h.1), ih h.2, List.cons_append]

theorem setKey_map (f : α → β) :
    setKey k (f v) (d.map fun e => (e.1, f e.2)) = (setKey k v d).map fun e => (e.1, f e.2) := by
  induction d with
  | nil => rfl
  | cons e d ih =>
    rw [List.map_cons, setKey, setKey, ih]
    split_ifs <;> rfl

theorem dictOf_concat (pairs : List (Text × α)) (e : Text × α) :
    dictOf (pairs ++ [e]) = setKey e.1 e.2 (dictOf pairs) := List.foldl_append

theorem nodup_dictOf (pairs : List (Text × α)) : ((dictOf pairs).map Prod.fst).Nodup := by
  induction pairs using List.reverseRecOn with
  | nil => exact List.nodup_nil
  | append_singleton pairs e ih =>
    rw [dictOf_concat]
    exact nodup_setKey ih

theorem dictOf_subset (pairs : List (Text × α)) : dictOf pairs ⊆ pairs := by
  induction pairs using List.reverseRecOn with
  | nil => exact List.Subset.refl []
  | append_singleton pairs e ih =>
    rw [dictOf_concat]
    intro e' he'
    rcases mem_setKey he' with rfl | he'
    · exact List.mem_append_right _ (List.mem_singleton_self e)
    · exact List.mem_append_left _ (ih he')

theorem dictOf_map (f : α → β) (pairs : List (Text × α)) :
    dictOf (pairs.map fun e => (e.1, f e.2)) = (dictOf pairs).map fun e => (e.1, f e.2) := by
  induction pairs using List.reverseRecOn with
  | nil => rfl
  | append_singleton pairs e ih =>
    rw [List.map_append, List.map_singleton, dictOf_concat, dictOf_concat, ih]
    exact setKey_map f

/-- Different keys all stay. -/
theorem dictOf_eq_self (h : (pairs.map Prod.fst).Nodup) : dictOf pairs = pairs := by
  induction pairs using List.reverseRecOn with
  | nil => rfl
  | append_singleton pairs e ih =>
    rw [List.map_append, List.nodup_append'] at h
    have hnew : e.1 ∉ pairs.map Prod.fst := fun hmem => h.2.2 hmem (List.mem_singleton_self _)
    rw [dictOf_concat, ih h.1, setKey_new hnew]

/-- What texts are ordered by. -/
def keyOrd (e : Text × α) : List ℕ := e.1.map CodePoint.ord

theorem keyOrd_injective {e e' : Text × α} (h : keyOrd e = keyOrd e') : e.1 = e'.1 :=
  List.map_injective_iff.mpr CodePoint.ord_injective h

/-- The fields of the dictionary of pairs, sorted. -/
def sortedFields (pairs : List (Text × α)) : List (Text × α) :=
  (dictOf pairs).insertionSort fun e e' => e.1.le e'.1

theorem sortedFields_subset (pairs : List (Text × α)) : sortedFields pairs ⊆ pairs :=
  fun _ he => dictOf_subset pairs ((List.mem_insertionSort _).mp he)

theorem increasing_sortedFields (pairs : List (Text × α)) :
    Increasing keyOrd (sortedFields pairs) := by
  have hkeys : ((dictOf pairs).map keyOrd).Nodup := by
    refine List.pairwise_map.mpr ((List.pairwise_map.mp (nodup_dictOf pairs)).imp ?_)
    exact fun hne heq => hne (keyOrd_injective heq)
  exact increasing_insertionSort hkeys

/-- **Increasing keys** all stay, in their order. -/
theorem sortedFields_eq_self_iff : sortedFields pairs = pairs ↔ Increasing keyOrd pairs := by
  constructor
  · intro h
    rw [← h]
    exact increasing_sortedFields pairs
  · intro h
    have hnodup : (pairs.map Prod.fst).Nodup := by
      refine List.pairwise_map.mpr (h.imp fun hlt heq => hlt.ne ?_)
      rw [keyOrd, keyOrd, heq]
    rw [sortedFields, dictOf_eq_self hnodup]
    exact List.Pairwise.insertionSort_eq (h.imp fun hlt => hlt.le)

theorem sortedFields_map (f : α → β) (pairs : List (Text × α)) :
    sortedFields (pairs.map fun e => (e.1, f e.2)) =
      (sortedFields pairs).map fun e => (e.1, f e.2) := by
  rw [sortedFields, sortedFields, dictOf_map]
  exact (List.map_insertionSort (fun e e' : Text × α => e.1.le e'.1)
    (fun e e' : Text × β => e.1.le e'.1) (fun e => (e.1, f e.2)) _ fun _ _ _ _ => Iff.rfl).symm

end Fields

/-! ## 2. Loaded values -/

namespace JsonTree

mutual

/-- The value that is loaded. -/
def value : JsonTree → PyValue
  | .null => .none
  | .bool b => .bool b
  | .int n => .int n
  | .float repr => .float repr
  | .str s => .str s
  | .list items => .list (valueItems items)
  | .dict fields => .dict ((dictOf (valueFields fields)).map fun e => (.str e.1, e.2))

def valueItems : List JsonTree → List PyValue
  | [] => []
  | j :: items => j.value :: valueItems items

def valueFields : List (Text × JsonTree) → List (Text × PyValue)
  | [] => []
  | (k, j) :: fields => (k, j.value) :: valueFields fields

end

mutual

/-- The tree of a loaded tree: its objects as dictionaries, sorted. -/
def reloaded : JsonTree → JsonTree
  | .list items => .list (reloadedItems items)
  | .dict fields => .dict (sortedFields (reloadedFields fields))
  | j => j

def reloadedItems : List JsonTree → List JsonTree
  | [] => []
  | j :: items => j.reloaded :: reloadedItems items

def reloadedFields : List (Text × JsonTree) → List (Text × JsonTree)
  | [] => []
  | (k, j) :: fields => (k, j.reloaded) :: reloadedFields fields

end

theorem valueItems_eq (items : List JsonTree) : valueItems items = items.map value := by
  induction items with
  | nil => rfl
  | cons j items ih => rw [valueItems, ih, List.map_cons]

theorem valueFields_eq (fields : List (Text × JsonTree)) :
    valueFields fields = fields.map fun e => (e.1, e.2.value) := by
  induction fields with
  | nil => rfl
  | cons e fields ih =>
    cases e
    rw [valueFields, ih, List.map_cons]

theorem reloadedItems_eq (items : List JsonTree) : reloadedItems items = items.map reloaded := by
  induction items with
  | nil => rfl
  | cons j items ih => rw [reloadedItems, ih, List.map_cons]

theorem reloadedFields_eq (fields : List (Text × JsonTree)) :
    reloadedFields fields = fields.map fun e => (e.1, e.2.reloaded) := by
  induction fields with
  | nil => rfl
  | cons e fields ih =>
    cases e
    rw [reloadedFields, ih, List.map_cons]

end JsonTree

theorem treeItems_map {α : Type} {f : α → PyValue} {g : α → JsonTree} {defaultStr : Bool}
    {items : List α} (h : ∀ a ∈ items, (f a).tree defaultStr = .ok (g a)) :
    treeItems defaultStr (items.map f) = .ok (items.map g) := by
  induction items with
  | nil => rfl
  | cons a items ih =>
    rw [List.map_cons, treeItems, h a List.mem_cons_self,
      ih fun b hb => h b (List.mem_cons_of_mem _ hb)]
    rfl

theorem treeFields_map {α : Type} {key : α → Key} {f : α → PyValue} {g : α → JsonTree}
    {defaultStr : Bool} {items : List α} (h : ∀ a ∈ items, (f a).tree defaultStr = .ok (g a)) :
    treeFields defaultStr (items.map fun a => (key a, f a)) =
      .ok (items.map fun a => (key a, g a)) := by
  induction items with
  | nil => rfl
  | cons a items ih =>
    rw [List.map_cons, treeFields, h a List.mem_cons_self,
      ih fun b hb => h b (List.mem_cons_of_mem _ hb)]
    rfl

/-- **What is loaded** has no value that needs `default=str`, and no keys but texts. -/
theorem value_tree (defaultStr : Bool) (j : JsonTree) :
    j.value.tree defaultStr = .ok j.reloaded := by
  induction j using JsonTree.induct with
  | null => rfl
  | bool => rfl
  | int => rfl
  | float => rfl
  | str => rfl
  | list items ih =>
    rw [JsonTree.value, PyValue.tree, JsonTree.valueItems_eq, treeItems_map ih,
      JsonTree.reloaded, JsonTree.reloadedItems_eq]
    rfl
  | dict fields ih =>
    have hfields : dictOf (JsonTree.valueFields fields) =
        (dictOf fields).map fun e => (e.1, e.2.value) := by
      rw [JsonTree.valueFields_eq, dictOf_map]
    have htree : treeFields defaultStr ((dictOf fields).map fun e => (Key.str e.1, e.2.value)) =
        .ok ((dictOf fields).map fun e => (Key.str e.1, e.2.reloaded)) :=
      treeFields_map fun e he => ih e (dictOf_subset fields he)
    have hsorted := sortKeys_texts ((dictOf fields).map fun e => (e.1, e.2.reloaded))
    simp only [List.map_map, Function.comp_def] at hsorted
    rw [JsonTree.value, PyValue.tree, hfields, List.map_map]
    change (treeFields defaultStr ((dictOf fields).map fun e => (Key.str e.1, e.2.value))).bind _ = _
    rw [htree]
    change (sortKeys ((dictOf fields).map _)).bind _ = _
    rw [hsorted, JsonTree.reloaded, JsonTree.reloadedFields_eq, sortedFields, dictOf_map]
    rfl

/-! ## 3. Trees that stay -/

section Trees

variable {j : JsonTree} {items : List JsonTree} {fields : List (Text × JsonTree)}

theorem map_eq_self_iff {α : Type} {f : α → α} {l : List α} :
    l.map f = l ↔ ∀ a ∈ l, f a = a := by
  have hid := List.map_inj_left (f := f) (g := id) (l := l)
  rwa [List.map_id] at hid

theorem reloaded_list_iff :
    (JsonTree.list items).reloaded = .list items ↔ ∀ j ∈ items, j.reloaded = j := by
  rw [JsonTree.reloaded, JsonTree.reloadedItems_eq, JsonTree.list.injEq, map_eq_self_iff]

theorem reloaded_dict_iff :
    (JsonTree.dict fields).reloaded = .dict fields ↔
      Increasing keyOrd fields ∧ ∀ e ∈ fields, e.2.reloaded = e.2 := by
  rw [JsonTree.reloaded, JsonTree.reloadedFields_eq, JsonTree.dict.injEq]
  constructor
  · intro h
    have hincreasing : Increasing keyOrd fields := by
      rw [← h]
      exact increasing_sortedFields _
    rw [sortedFields_map, sortedFields_eq_self_iff.mpr hincreasing, map_eq_self_iff] at h
    exact ⟨hincreasing, fun e he => congrArg Prod.snd (h e he)⟩
  · rintro ⟨hincreasing, h⟩
    have hsame : (fields.map fun e => (e.1, e.2.reloaded)) = fields :=
      map_eq_self_iff.mpr fun e he => Prod.ext rfl (h e he)
    rw [hsame, sortedFields_eq_self_iff.mpr hincreasing]

theorem Text.joined_joined (t : Text) : t.joined.joined = t.joined := by
  rw [joined, units_joined, joined]

/-- Joined texts stay as they are. -/
theorem joined_reloaded (j : JsonTree) : j.joined.reloaded.joined = j.joined.reloaded := by
  induction j using JsonTree.induct with
  | null => rfl
  | bool => rfl
  | int => rfl
  | float => rfl
  | str s => exact congrArg JsonTree.str s.joined_joined
  | list items ih =>
    simp only [JsonTree.joined, JsonTree.reloaded, JsonTree.joinedItems_eq,
      JsonTree.reloadedItems_eq, List.map_map]
    exact congrArg JsonTree.list (List.map_congr_left ih)
  | dict fields ih =>
    simp only [JsonTree.joined, JsonTree.reloaded, JsonTree.joinedFields_eq,
      JsonTree.reloadedFields_eq, List.map_map]
    refine congrArg JsonTree.dict (map_eq_self_iff.mpr fun e he => ?_)
    obtain ⟨field, hfield, rfl⟩ := List.mem_map.mp (sortedFields_subset _ he)
    exact Prod.ext field.1.joined_joined (ih field hfield)

end Trees

/-! ## 4. Values that stay -/

/-- Every part is a value again. -/
@[elab_as_elim]
theorem PyValue.induct {P : PyValue → Prop} (none : P .none) (bool : ∀ b, P (.bool b))
    (int : ∀ n, P (.int n)) (float : ∀ repr, P (.float repr)) (str : ∀ s, P (.str s))
    (list : ∀ items, (∀ v ∈ items, P v) → P (.list items))
    (tuple : ∀ items, (∀ v ∈ items, P v) → P (.tuple items))
    (dict : ∀ items : Dict, (∀ e ∈ items, P e.2) → P (.dict items))
    (other : ∀ shown, P (.other shown)) (v : PyValue) : P v :=
  @PyValue.rec P (fun items => ∀ v ∈ items, P v) (fun items => ∀ e ∈ items, P e.2)
    (fun e => P e.2) none bool int float str list tuple dict other (List.forall_mem_nil _)
    (fun _ _ hv hitems => List.forall_mem_cons.mpr ⟨hv, hitems⟩) (List.forall_mem_nil _)
    (fun _ _ he hitems => List.forall_mem_cons.mpr ⟨he, hitems⟩) (fun _ _ hv => hv) v

/-- The keys as they are written. -/
def keyTexts (keys : List Key) : Except DumpError (List Text) :=
  (sortKeys (keys.map fun k => (k, ()))).map (List.map Prod.fst)

/-- The keys are in the order of their texts as they are read, and no two of these are the same. -/
def KeysIncrease (keys : List Key) : Prop :=
  ∀ texts, keyTexts keys = .ok texts → Increasing (fun s => s.joined.map CodePoint.ord) texts

mutual

/-- It needs no `default=str`, and its dictionaries stay in order. -/
def PyValue.Reloads : PyValue → Prop
  | .list items => ReloadsItems items
  | .tuple items => ReloadsItems items
  | .dict items => KeysIncrease (items.map Prod.fst) ∧ ReloadsFields items
  | .other _ => False
  | _ => True

def ReloadsItems : List PyValue → Prop
  | [] => True
  | v :: items => v.Reloads ∧ ReloadsItems items

def ReloadsFields : Dict → Prop
  | [] => True
  | (_, v) :: items => v.Reloads ∧ ReloadsFields items

end

section Values

variable {v : PyValue} {j : JsonTree} {items : List PyValue} {fields : Dict} {defaultStr : Bool}

/-- What is written of a value. -/
def Written (defaultStr : Bool) (v : PyValue) (j : JsonTree) : Prop := v.tree defaultStr = .ok j

/-- What is written of a field. -/
def FieldWritten (defaultStr : Bool) (e : Key × PyValue) (e' : Key × JsonTree) : Prop :=
  e.1 = e'.1 ∧ Written defaultStr e.2 e'.2

theorem treeItems_eq_ok_iff {js : List JsonTree} :
    treeItems defaultStr items = .ok js ↔ List.Forall₂ (Written defaultStr) items js := by
  induction items generalizing js with
  | nil =>
    rw [treeItems, List.forall₂_nil_left_iff, Except.ok.injEq, eq_comm]
  | cons v items ih =>
    simp only [treeItems, bind_eq_ok_iff, ih, List.forall₂_cons_left_iff, pure_eq_ok,
      Except.ok.injEq, Written]
    constructor
    · rintro ⟨j, hj, js, hjs, rfl⟩
      exact ⟨j, js, hj, hjs, rfl⟩
    · rintro ⟨j, js, hj, hjs, rfl⟩
      exact ⟨j, hj, js, hjs, rfl⟩

theorem treeFields_eq_ok_iff {js : List (Key × JsonTree)} :
    treeFields defaultStr fields = .ok js ↔ List.Forall₂ (FieldWritten defaultStr) fields js := by
  induction fields generalizing js with
  | nil =>
    rw [treeFields, List.forall₂_nil_left_iff, Except.ok.injEq, eq_comm]
  | cons e fields ih =>
    simp only [treeFields, bind_eq_ok_iff, ih, List.forall₂_cons_left_iff, pure_eq_ok,
      Except.ok.injEq, FieldWritten, Written]
    constructor
    · rintro ⟨j, hj, js, hjs, rfl⟩
      exact ⟨(e.1, j), js, ⟨rfl, hj⟩, hjs, rfl⟩
    · rintro ⟨⟨k, j⟩, js, ⟨rfl, hj⟩, hjs, rfl⟩
      exact ⟨j, hj, js, hjs, rfl⟩

theorem written_list_iff :
    Written defaultStr (.list items) j ↔
      ∃ js, List.Forall₂ (Written defaultStr) items js ∧ JsonTree.list js = j := by
  simp only [Written, PyValue.tree, bind_eq_ok_iff, treeItems_eq_ok_iff, pure_eq_ok,
    Except.ok.injEq]

theorem written_dict_iff :
    Written defaultStr (.dict fields) j ↔
      ∃ js, List.Forall₂ (FieldWritten defaultStr) fields js ∧
        ∃ sorted, sortKeys js = .ok sorted ∧ JsonTree.dict sorted = j := by
  simp only [Written, PyValue.tree, bind_eq_ok_iff, treeFields_eq_ok_iff, pure_eq_ok,
    Except.ok.injEq]

theorem forall₂_imp_of_mem {α β : Type} {R S : α → β → Prop} {l : List α} {l' : List β}
    (h : List.Forall₂ R l l') (himp : ∀ a ∈ l, ∀ b, R a b → S a b) : List.Forall₂ S l l' := by
  induction h with
  | nil => exact .nil
  | cons hab _ ih =>
    exact .cons (himp _ List.mem_cons_self _ hab)
      (ih fun a ha => himp a (List.mem_cons_of_mem _ ha))

/-- What is written without `default=str` is written with it. -/
theorem Written.default (h : Written false v j) : Written true v j := by
  induction v using PyValue.induct generalizing j with
  | none => exact h
  | bool => exact h
  | int => exact h
  | float => exact h
  | str => exact h
  | list items ih =>
    obtain ⟨js, hjs, rfl⟩ := written_list_iff.mp h
    exact written_list_iff.mpr ⟨js, forall₂_imp_of_mem hjs fun v hv _ hj => ih v hv hj, rfl⟩
  | tuple items ih =>
    obtain ⟨js, hjs, rfl⟩ := written_list_iff.mp h
    exact written_list_iff.mpr ⟨js, forall₂_imp_of_mem hjs fun v hv _ hj => ih v hv hj, rfl⟩
  | dict items ih =>
    obtain ⟨js, hjs, hsorted⟩ := written_dict_iff.mp h
    exact written_dict_iff.mpr
      ⟨js, forall₂_imp_of_mem hjs fun e he _ hj => ⟨hj.1, ih e he hj.2⟩, hsorted⟩
  | other => cases h

theorem Written.unique {j' : JsonTree} (h : Written defaultStr v j) (h' : Written defaultStr v j') :
    j = j' := Except.ok.inj (h.symm.trans h')

/-- It is read back, and written again, the same. -/
def JsonTree.Stays (j : JsonTree) : Prop := j.joined.reloaded = j.joined

theorem stays_list_iff {js : List JsonTree} :
    (JsonTree.list js).Stays ↔ ∀ j ∈ js, j.Stays := by
  rw [JsonTree.Stays, JsonTree.joined, reloaded_list_iff, JsonTree.joinedItems_eq,
    List.forall_mem_map]
  rfl

theorem stays_dict_iff {sorted : List (Text × JsonTree)} :
    (JsonTree.dict sorted).Stays ↔
      Increasing (fun s => s.joined.map CodePoint.ord) (sorted.map Prod.fst) ∧
        ∀ e ∈ sorted, e.2.Stays := by
  rw [JsonTree.Stays, JsonTree.joined, reloaded_dict_iff, JsonTree.joinedFields_eq,
    List.forall_mem_map, Increasing, List.pairwise_map, Increasing, List.pairwise_map]
  rfl

theorem reloadsItems_iff : ReloadsItems items ↔ ∀ v ∈ items, v.Reloads := by
  induction items with
  | nil => simp [ReloadsItems]
  | cons v items ih => rw [ReloadsItems, ih, List.forall_mem_cons]

theorem reloadsFields_iff : ReloadsFields fields ↔ ∀ e ∈ fields, e.2.Reloads := by
  induction fields with
  | nil => simp [ReloadsFields]
  | cons e fields ih =>
    cases e
    rw [ReloadsFields, ih, List.forall_mem_cons]

theorem mapM_snd {α γ : Type} {key : Key → Option γ} {l : List (Key × α)} {l' : List (γ × α)}
    (h : l.mapM (fun e => (key e.1).map fun s => (s, e.2)) = some l') :
    l'.map Prod.snd = l.map Prod.snd := by
  induction l generalizing l' with
  | nil =>
    cases h
    rfl
  | cons e l ih =>
    rw [List.mapM_cons] at h
    obtain ⟨e', he', hrest⟩ := Option.bind_eq_some_iff.mp h
    obtain ⟨rest, hl, hsome⟩ := Option.bind_eq_some_iff.mp hrest
    obtain ⟨s, -, rfl⟩ := Option.map_eq_some_iff.mp he'
    obtain rfl := Option.some.inj hsome
    rw [List.map_cons, List.map_cons, ih hl]

/-- Sorting keeps the values. -/
theorem mem_sortKeys {α : Type} {l : List (Key × α)} {sorted : List (Text × α)}
    (h : sortKeys l = .ok sorted) : (sorted.map Prod.snd).Perm (l.map Prod.snd) := by
  unfold sortKeys at h
  split at h
  · next texts htexts =>
    obtain rfl := Except.ok.inj h
    rw [← mapM_snd htexts]
    exact (List.perm_insertionSort _ texts).map Prod.snd
  · split at h
    · next numbers hnumbers =>
      obtain rfl := Except.ok.inj h
      rw [List.map_map, ← mapM_snd hnumbers]
      exact (List.perm_insertionSort _ numbers).map Prod.snd
    · split at h
      · obtain rfl := Except.ok.inj h
        exact List.Perm.refl _
      · cases h

theorem keyTexts_eq {α : Type} {l : List (Key × α)} {sorted : List (Text × α)}
    (h : sortKeys l = .ok sorted) : keyTexts (l.map Prod.fst) = .ok (sorted.map Prod.fst) := by
  have hunit := sortKeys_map (fun _ => ()) l
  rw [h] at hunit
  rw [keyTexts, List.map_map]
  change (sortKeys (l.map fun e => (e.1, ()))).map _ = _
  rw [hunit]
  change Except.ok _ = _
  rw [List.map_map]
  rfl

/-- Items, or the values of fields, one by one. -/
theorem forall₂_reloads_iff {α β : Type} {R S : α → β → Prop} {P : α → Prop} {Q : β → Prop}
    {l : List α} {l' : List β} (h : List.Forall₂ R l l')
    (hiff : ∀ a ∈ l, ∀ b, R a b → (P a ↔ S a b ∧ Q b)) :
    (∀ a ∈ l, P a) ↔ List.Forall₂ S l l' ∧ ∀ b ∈ l', Q b := by
  induction h with
  | nil => simp
  | cons hab _ ih =>
    rw [List.forall_mem_cons, List.forall_mem_cons, List.forall₂_cons,
      hiff _ List.mem_cons_self _ hab, ih fun a ha => hiff a (List.mem_cons_of_mem _ ha)]
    exact and_and_and_comm

theorem keys_eq {js : List (Key × JsonTree)}
    (h : List.Forall₂ (FieldWritten defaultStr) fields js) :
    fields.map Prod.fst = js.map Prod.fst := by
  induction h with
  | nil => rfl
  | cons he _ ih => rw [List.map_cons, List.map_cons, he.1, ih]

theorem FieldWritten.defaults {js js' : List (Key × JsonTree)}
    (h : List.Forall₂ (FieldWritten true) fields js)
    (h' : List.Forall₂ (FieldWritten false) fields js') : js' = js := by
  have hdefault : List.Forall₂ (FieldWritten true) fields js' :=
    forall₂_imp_of_mem h' fun e _ _ he => ⟨he.1, he.2.default⟩
  rw [← treeFields_eq_ok_iff] at h hdefault
  exact Except.ok.inj (hdefault.symm.trans h)

theorem reloads_list_iff {js : List JsonTree} (h : List.Forall₂ (Written true) items js)
    (ih : ∀ v ∈ items, ∀ j, Written true v j → (v.Reloads ↔ Written false v j ∧ j.Stays)) :
    (PyValue.list items).Reloads ↔
      Written false (.list items) (.list js) ∧ (JsonTree.list js).Stays := by
  rw [PyValue.Reloads, reloadsItems_iff, forall₂_reloads_iff h ih, stays_list_iff,
    written_list_iff]
  constructor
  · rintro ⟨hwritten, hstays⟩
    exact ⟨⟨js, hwritten, rfl⟩, hstays⟩
  · rintro ⟨⟨js', hwritten, hsame⟩, hstays⟩
    obtain rfl := JsonTree.list.inj hsame
    exact ⟨hwritten, hstays⟩

theorem reloads_dict_iff {js : List (Key × JsonTree)} {sorted : List (Text × JsonTree)}
    (h : List.Forall₂ (FieldWritten true) fields js) (hsorted : sortKeys js = .ok sorted)
    (ih : ∀ e ∈ fields, ∀ j, Written true e.2 j → (e.2.Reloads ↔ Written false e.2 j ∧ j.Stays)) :
    (PyValue.dict fields).Reloads ↔
      Written false (.dict fields) (.dict sorted) ∧ (JsonTree.dict sorted).Stays := by
  have hkeys : KeysIncrease (fields.map Prod.fst) ↔
      Increasing (fun s => s.joined.map CodePoint.ord) (sorted.map Prod.fst) := by
    rw [keys_eq h, KeysIncrease, keyTexts_eq hsorted]
    exact ⟨fun hall => hall _ rfl, fun hincreasing texts htexts => Except.ok.inj htexts ▸ hincreasing⟩
  have hvalues : (∀ e ∈ js, e.2.Stays) ↔ ∀ e ∈ sorted, e.2.Stays := by
    have hmem : ∀ j, j ∈ sorted.map Prod.snd ↔ j ∈ js.map Prod.snd :=
      fun j => (mem_sortKeys hsorted).mem_iff
    have hsnd : ∀ {κ : Type} {l : List (κ × JsonTree)},
        (∀ j ∈ l.map Prod.snd, j.Stays) ↔ ∀ e ∈ l, e.2.Stays := List.forall_mem_map
    rw [← hsnd, ← hsnd]
    exact forall_congr' fun j => imp_congr (hmem j).symm Iff.rfl
  have hfields : ReloadsFields fields ↔
      List.Forall₂ (FieldWritten false) fields js ∧ ∀ e ∈ js, e.2.Stays := by
    rw [reloadsFields_iff]
    refine forall₂_reloads_iff h fun e he e' he' => ?_
    rw [ih e he e'.2 he'.2, FieldWritten, and_assoc, and_iff_right he'.1]
  rw [PyValue.Reloads, hkeys, hfields, stays_dict_iff, hvalues, written_dict_iff]
  constructor
  · rintro ⟨hincreasing, hwritten, hstays⟩
    exact ⟨⟨js, hwritten, sorted, hsorted, rfl⟩, hincreasing, hstays⟩
  · rintro ⟨⟨js', hwritten, -⟩, hincreasing, hstays⟩
    obtain rfl := FieldWritten.defaults h hwritten
    exact ⟨hincreasing, hwritten, hstays⟩

/-- **What is written** stays exactly if the value reloads. -/
theorem reloads_iff (h : Written true v j) : v.Reloads ↔ Written false v j ∧ j.Stays := by
  have hscalar : ∀ {v j}, v.Reloads → Written false v j → j.Stays →
      (v.Reloads ↔ Written false v j ∧ j.Stays) := fun hreloads hwritten hstays =>
    iff_of_true hreloads ⟨hwritten, hstays⟩
  induction v using PyValue.induct generalizing j with
  | none => exact Except.ok.inj h ▸ hscalar trivial rfl rfl
  | bool => exact Except.ok.inj h ▸ hscalar trivial rfl rfl
  | int => exact Except.ok.inj h ▸ hscalar trivial rfl rfl
  | float => exact Except.ok.inj h ▸ hscalar trivial rfl rfl
  | str s => exact Except.ok.inj h ▸ hscalar trivial rfl rfl
  | list items ih =>
    obtain ⟨js, hjs, rfl⟩ := written_list_iff.mp h
    exact reloads_list_iff hjs fun v hv j => ih v hv
  | tuple items ih =>
    obtain ⟨js, hjs, rfl⟩ := written_list_iff.mp h
    exact reloads_list_iff hjs fun v hv j => ih v hv
  | dict items ih =>
    obtain ⟨js, hjs, sorted, hsorted, rfl⟩ := written_dict_iff.mp h
    exact reloads_dict_iff hjs hsorted fun e he j => ih e he
  | other shown => exact iff_of_false id fun hwritten => by cases hwritten.1

end Values

/-! ## 5. Bytes -/

/-- With `ensure_ascii` every tree can be encoded. -/
theorem encodable_write (j : JsonTree) : (j.write true).Encodable := by
  induction j using JsonTree.induct with
  | null => exact Text.encodable_of _
  | bool => exact Text.encodable_of _
  | int => exact Text.encodable_of _
  | float => exact Text.encodable_of _
  | str s => exact encodable_quote_ascii s
  | list items ih =>
    rw [JsonTree.write, writeItems_eq]
    exact encodable_writeList (List.forall_mem_map.mpr ih)
  | dict fields ih =>
    rw [JsonTree.write, writeFields_eq, writeDict]
    refine ((Text.encodable_of _).append (encodable_commas ?_)).append (Text.encodable_of _)
    rw [List.map_map, List.forall_mem_map]
    exact fun e he => (encodable_quote_ascii e.1).append ((ih e he).scalar_cons ':')

theorem of_chars {t : Text} (h : t.Encodable) : Text.of t.chars = t := by
  obtain ⟨s, rfl⟩ := h.exists_of
  rw [Text.chars_of]

theorem bytes_eq (defaultStr : Bool) (v : PyValue) :
    v.bytes { defaultStr := defaultStr } =
      (v.tree defaultStr).map fun j => (j.write true).chars := by
  rw [PyValue.bytes, dumps_eq]
  cases v.tree defaultStr with
  | error e => rfl
  | ok j =>
    simp only [Except.map, ok_bind, (encodable_write j).encode]
    rfl

theorem floats_joined (j : JsonTree) : j.joined.floats = j.floats := by
  induction j using JsonTree.induct with
  | null => rfl
  | bool => rfl
  | int => rfl
  | float => rfl
  | str => rfl
  | list items ih =>
    rw [JsonTree.joined, JsonTree.floats, JsonTree.floats, JsonTree.joinedItems_eq,
      JsonTree.floatsItems_eq, JsonTree.floatsItems_eq, List.flatMap_map]
    exact List.flatMap_congr ih
  | dict fields ih =>
    rw [JsonTree.joined, JsonTree.floats, JsonTree.floats, JsonTree.joinedFields_eq,
      JsonTree.floatsFields_eq, JsonTree.floatsFields_eq, List.flatMap_map]
    exact List.flatMap_congr ih

theorem floats_reloaded (j : JsonTree) : j.reloaded.floats ⊆ j.floats := by
  induction j using JsonTree.induct with
  | null => exact List.Subset.refl _
  | bool => exact List.Subset.refl _
  | int => exact List.Subset.refl _
  | float => exact List.Subset.refl _
  | str => exact List.Subset.refl _
  | list items ih =>
    rw [JsonTree.reloaded, JsonTree.floats, JsonTree.floats, JsonTree.reloadedItems_eq,
      JsonTree.floatsItems_eq, JsonTree.floatsItems_eq, List.flatMap_map]
    intro repr hrepr
    obtain ⟨j, hj, hrepr⟩ := List.mem_flatMap.mp hrepr
    exact List.mem_flatMap_of_mem hj (ih j hj hrepr)
  | dict fields ih =>
    rw [JsonTree.reloaded, JsonTree.floats, JsonTree.floats, JsonTree.reloadedFields_eq,
      JsonTree.floatsFields_eq, JsonTree.floatsFields_eq]
    intro repr hrepr
    obtain ⟨e, he, hrepr⟩ := List.mem_flatMap.mp hrepr
    obtain ⟨field, hfield, rfl⟩ := List.mem_map.mp (sortedFields_subset _ he)
    exact List.mem_flatMap.mpr ⟨field, hfield, ih field hfield hrepr⟩

end Python
