/-
# The bounded event buffer

`core/backpressure.py`: a heap of events by priority and arrival.  When it is full, an event takes
the place of the worst one in it, or is dropped.

* `keeps_the_best`: after any calls the buffer has answered like a list of the events in their
  order of arrival that drops the worst one when it is too long, and it holds what that list does;
  the events of one category come out in the order they were put in, and every event that was put
  is in the buffer, has been returned or was dropped.
-/
import Kripto.Effect.Object
import Kripto.Effect.Sorting
import Kripto.Python.Heapq
import Mathlib.Data.List.MinMax
import Mathlib.Data.Prod.Lex

namespace Kripto.Core.Backpressure

open Effect Python

/-! ## 1. The buffer -/

def PRIORITY : List (String × ℕ) :=
  [("private_order_fill", 0), ("protective_position", 1), ("best_bid_ask", 2),
    ("active_position_market", 3), ("candidate_market", 4), ("scanner_low", 5)]

structure QueuedEvent (P : Type) where
  category : String
  payload : P

/-- `(PRIORITY[event.category], next(self._counter), event)`. -/
structure Item (P : Type) where
  priority : ℕ
  count : ℕ
  event : QueuedEvent P

inductive Exc
  | keyError (key : String)
  | indexError (msg : String)
  | valueError (msg : String)
  deriving DecidableEq

inductive Call (P : Type)
  | put (event : QueuedEvent P)
  | get

/-- What a call that does not raise returns. -/
inductive Answer (P : Type)
  | accepted (b : Bool)
  | event (e : QueuedEvent P)

variable {P : Type}

/-- No two items have the same count, so tuples are told apart before their events are compared. -/
def Item.key (x : Item P) : ℕ ×ₗ ℕ := toLex (x.priority, x.count)

structure PriorityEventBuffer (P : Type) where
  maxsize : ℤ := 1024
  heap : List (Item P) := []
  counter : ℕ := 0
  dropped : ℕ := 0

namespace PriorityEventBuffer

variable (self : PriorityEventBuffer P)

/-- `self._heap.remove(worst)`. -/
def remove (heap : List (Item P)) (worst : Item P) : List (Item P) :=
  heap.eraseP fun x => x.key = worst.key

/-- `put` with the item made. -/
def add (item : Item P) : Except Exc (Answer P) × PriorityEventBuffer P :=
  if (self.heap.length : ℤ) < self.maxsize then
    (.ok (.accepted true), { self with heap := heappush Item.key self.heap item })
  else match self.heap.argmax Item.key with
    | none => (.error (.valueError "max() iterable argument is empty"), self)
    | some worst =>
      if item.priority < worst.priority then
        (.ok (.accepted true), { self with
          heap := heappush Item.key (heapify Item.key (remove self.heap worst)) item
          dropped := self.dropped + 1 })
      else (.ok (.accepted false), { self with dropped := self.dropped + 1 })

def put (event : QueuedEvent P) : Except Exc (Answer P) × PriorityEventBuffer P :=
  match PRIORITY.lookup event.category with
  | none => (.error (.keyError event.category), self)
  | some priority =>
    add { self with counter := self.counter + 1 } ⟨priority, self.counter, event⟩

def get : Except Exc (Answer P) × PriorityEventBuffer P :=
  match heappop Item.key self.heap with
  | none => (.error (.indexError "index out of range"), self)
  | some (x, rest) => (.ok (.event x.event), { self with heap := rest })

def call : Object (PriorityEventBuffer P) (Call P) (Except Exc (Answer P))
  | self, .put event => self.put event
  | self, .get => self.get

end PriorityEventBuffer

/-! ## 2. The reference -/

section Ranked

variable {α β : Type} (rank : α → ℕ)

/-- The list without the last of those with the highest rank. -/
def dropWorst : List α → List α
  | [] => []
  | x :: xs => if ∀ y ∈ xs, rank y < rank x then xs else x :: dropWorst xs

/-- The first of those with the lowest rank, and the list without it. -/
def takeBest : List α → Option (α × List α)
  | [] => none
  | x :: xs =>
    if ∀ y ∈ xs, rank x ≤ rank y then some (x, xs)
    else (takeBest xs).map fun e => (e.1, x :: e.2)

end Ranked

/-- The events that are kept, in their order of arrival. -/
structure Reference (P : Type) where
  maxsize : ℤ
  kept : List (QueuedEvent P) := []

/-- The priority of an event that can be put. -/
def priorityOf (event : QueuedEvent P) : ℕ := (PRIORITY.lookup event.category).getD 0

namespace Reference

variable (self : Reference P)

/-- The new event is the last to arrive.  If there is no room for one more, the worst is dropped. -/
def put (event : QueuedEvent P) : Except Exc (Answer P) × Reference P :=
  if (PRIORITY.lookup event.category).isNone then (.error (.keyError event.category), self)
  else if (self.kept.length : ℤ) + 1 ≤ self.maxsize then
    (.ok (.accepted true), { self with kept := self.kept ++ [event] })
  else
    (.ok (.accepted (∃ e ∈ self.kept, priorityOf event < priorityOf e)),
      { self with kept := dropWorst priorityOf (self.kept ++ [event]) })

def get : Except Exc (Answer P) × Reference P :=
  match takeBest priorityOf self.kept with
  | none => (.error (.indexError "index out of range"), self)
  | some (e, rest) => (.ok (.event e), { self with kept := rest })

def call : Object (Reference P) (Call P) (Except Exc (Answer P))
  | self, .put event => self.put event
  | self, .get => self.get

end Reference

/-! ## 3. What the reference takes and drops -/

section Ranked

variable {α β : Type} {rank : α → ℕ} {xs pre post : List α} {w : α}

/-- `w` stands behind `pre` and before `post`, and is picked from among them by its rank. -/
structure Picked (P Q : ℕ → ℕ → Prop) (rank : α → ℕ) (pre : List α) (w : α) (post : List α) :
    Prop where
  before : ∀ x ∈ pre, P (rank x) (rank w)
  after : ∀ x ∈ post, Q (rank x) (rank w)

/-- The last of those with the highest rank. -/
abbrev IsWorst : (α → ℕ) → List α → α → List α → Prop := Picked (· ≤ ·) (· < ·)

/-- The first of those with the lowest rank. -/
abbrev IsBest : (α → ℕ) → List α → α → List α → Prop := Picked (· > ·) (· ≥ ·)

theorem exists_picked {P Q : ℕ → ℕ → Prop} (hnot : ∀ a b, ¬Q b a → P a b)
    (hbefore : ∀ a b c, P a b → P b c → P a c) (hafter : ∀ a b c, P a b → Q b c → P a c)
    (rank : α → ℕ) (hne : xs ≠ []) :
    ∃ pre w post, xs = pre ++ w :: post ∧ Picked P Q rank pre w post := by
  induction xs with
  | nil => exact absurd rfl hne
  | cons x xs ih =>
    by_cases hx : ∀ y ∈ xs, Q (rank y) (rank x)
    · exact ⟨[], x, xs, rfl, nofun, hx⟩
    · push Not at hx
      obtain ⟨y, hy, hxy⟩ := hx
      obtain ⟨pre, w, post, rfl, hw⟩ := ih (List.ne_nil_of_mem hy)
      refine ⟨x :: pre, w, post, rfl, fun z hz => ?_, hw.after⟩
      rcases List.mem_cons.mp hz with rfl | hz
      · rcases List.mem_append.mp hy with hy | hy
        · exact hbefore _ _ _ (hnot _ _ hxy) (hw.before y hy)
        · rcases List.mem_cons.mp hy with rfl | hy
          · exact hnot _ _ hxy
          · exact hafter _ _ _ (hnot _ _ hxy) (hw.after y hy)
      · exact hw.before z hz

theorem exists_isWorst (rank : α → ℕ) (hne : xs ≠ []) :
    ∃ pre w post, xs = pre ++ w :: post ∧ IsWorst rank pre w post :=
  exists_picked (P := (· ≤ ·)) (fun _ _ => not_lt.mp) (fun _ _ _ => le_trans)
    (fun _ _ _ hle hlt => hle.trans hlt.le) rank hne

theorem exists_isBest (rank : α → ℕ) (hne : xs ≠ []) :
    ∃ pre b post, xs = pre ++ b :: post ∧ IsBest rank pre b post :=
  exists_picked (P := (· > ·)) (fun _ _ => not_le.mp) (fun _ _ _ => gt_trans)
    (fun _ _ _ hlt hle => hle.trans_lt hlt) rank hne

/-- **The worst is dropped.** -/
theorem IsWorst.dropWorst_eq (h : IsWorst rank pre w post) :
    dropWorst rank (pre ++ w :: post) = pre ++ post := by
  induction pre with
  | nil => rw [List.nil_append, List.nil_append, dropWorst, if_pos h.after]
  | cons x pre ih =>
    have hlater : ¬∀ y ∈ pre ++ w :: post, rank y < rank x := fun hall =>
      absurd (hall w (by simp)) (not_lt.mpr (h.before x List.mem_cons_self))
    rw [List.cons_append, dropWorst, if_neg hlater,
      ih ⟨fun y hy => h.before y (List.mem_cons_of_mem x hy), h.after⟩, List.cons_append]

theorem IsBest.takeBest_eq (h : IsBest rank pre w post) :
    takeBest rank (pre ++ w :: post) = some (w, pre ++ post) := by
  induction pre with
  | nil => rw [List.nil_append, List.nil_append, takeBest, if_pos h.after]
  | cons x pre ih =>
    have hlater : ¬∀ y ∈ pre ++ w :: post, rank x ≤ rank y := fun hall =>
      absurd (hall w (by simp)) (not_le.mpr (h.before x List.mem_cons_self))
    rw [List.cons_append, takeBest, if_neg hlater,
      ih ⟨fun y hy => h.before y (List.mem_cons_of_mem x hy), h.after⟩, Option.map_some,
      List.cons_append]

/-- A worse one that arrives later is the worst. -/
theorem IsWorst.concat (h : IsWorst rank pre w post) (x : α) :
    dropWorst rank (pre ++ w :: post ++ [x]) =
      if rank x < rank w then pre ++ post ++ [x] else pre ++ w :: post := by
  split_ifs with hx
  · have hlater : IsWorst rank pre w (post ++ [x]) := by
      refine ⟨h.before, fun y hy => ?_⟩
      rcases List.mem_append.mp hy with hy | hy
      · exact h.after y hy
      · rwa [List.mem_singleton.mp hy]
    rw [List.append_assoc, List.cons_append, hlater.dropWorst_eq, List.append_assoc]
  · have hlast : IsWorst rank (pre ++ w :: post) x [] := by
      refine ⟨fun y hy => le_trans ?_ (not_lt.mp hx), fun y hy => (List.not_mem_nil hy).elim⟩
      rcases List.mem_append.mp hy with hy | hy
      · exact h.before y hy
      · rcases List.mem_cons.mp hy with rfl | hy
        · exact le_rfl
        · exact (h.after y hy).le
    rw [hlast.dropWorst_eq, List.append_nil]

end Ranked

/-! ## 4. The buffer holds what the reference keeps -/

/-- `items` are those of the heap in their order of arrival, and the reference keeps their events. -/
structure Refines (items : List (Item P)) (b : PriorityEventBuffer P) (r : Reference P) :
    Prop where
  isHeap : IsHeap Item.key b.heap
  perm : items.Perm b.heap
  arrived : Increasing Item.count items
  kept : items.map Item.event = r.kept
  counted : ∀ x ∈ items, x.count < b.counter
  ranked : ∀ x ∈ items, PRIORITY.lookup x.event.category = some x.priority
  maxsize : b.maxsize = r.maxsize

section Items

variable {items pre post : List (Item P)} {x w : Item P}

theorem key_le_iff {x y : Item P} :
    x.key ≤ y.key ↔ x.priority < y.priority ∨ x.priority = y.priority ∧ x.count ≤ y.count :=
  Prod.Lex.toLex_le_toLex

theorem count_eq_of_key {x y : Item P} (h : x.key = y.key) : x.count = y.count :=
  congrArg (fun k => (ofLex k).2) h

/-- Among items in their order of arrival the worst has the greatest key. -/
theorem IsWorst.key_le (h : IsWorst Item.priority pre w post)
    (harrived : Increasing Item.count (pre ++ w :: post)) :
    ∀ y ∈ pre ++ w :: post, y.key ≤ w.key := by
  intro y hy
  rw [key_le_iff]
  rcases List.mem_append.mp hy with hy | hy
  · have hcount := (List.pairwise_append.mp harrived).2.2 y hy w List.mem_cons_self
    rcases (h.before y hy).lt_or_eq with hlt | heq
    · exact .inl hlt
    · exact .inr ⟨heq, hcount.le⟩
  · rcases List.mem_cons.mp hy with rfl | hy
    · exact .inr ⟨rfl, le_rfl⟩
    · exact .inl (h.after y hy)

/-- The best has the least key. -/
theorem IsBest.le_key (h : IsBest Item.priority pre w post)
    (harrived : Increasing Item.count (pre ++ w :: post)) :
    ∀ y ∈ pre ++ w :: post, w.key ≤ y.key := by
  intro y hy
  rw [key_le_iff]
  rcases List.mem_append.mp hy with hy | hy
  · exact .inl (h.before y hy)
  · rcases List.mem_cons.mp hy with rfl | hy
    · exact .inr ⟨rfl, le_rfl⟩
    · have hcount := (List.pairwise_cons.mp (List.pairwise_append.mp harrived).2.1).1 y hy
      rcases (h.after y hy).lt_or_eq with hlt | heq
      · exact .inl hlt
      · exact .inr ⟨heq, hcount.le⟩

variable {b : PriorityEventBuffer P} {r : Reference P}

theorem Refines.eq_of_key (h : Refines items b r) {x y : Item P} (hx : x ∈ items)
    (hy : y ∈ items) (hkey : x.key = y.key) : x = y :=
  h.arrived.eq_of_key hx hy (count_eq_of_key hkey)

theorem Refines.priorityOf (h : Refines items b r) (hx : x ∈ items) :
    priorityOf x.event = x.priority := by
  rw [Backpressure.priorityOf, h.ranked x hx]
  rfl

theorem Refines.length (h : Refines items b r) : b.heap.length = r.kept.length := by
  rw [← h.kept, List.length_map, h.perm.length_eq]

/-- The ranks of the items are those of their events. -/
theorem Refines.picked {P Q : ℕ → ℕ → Prop} (h : Refines (pre ++ w :: post) b r)
    (hw : Picked P Q Item.priority pre w post) :
    Picked P Q Backpressure.priorityOf (pre.map Item.event) w.event (post.map Item.event) := by
  have hrank := h.priorityOf (show w ∈ _ by simp)
  constructor
  · intro e he
    obtain ⟨x, hx, rfl⟩ := List.mem_map.mp he
    rw [h.priorityOf (show x ∈ _ by simp [hx]), hrank]
    exact hw.before x hx
  · intro e he
    obtain ⟨x, hx, rfl⟩ := List.mem_map.mp he
    rw [h.priorityOf (show x ∈ _ by simp [hx]), hrank]
    exact hw.after x hx

/-- **The linear scan** finds the worst item. -/
theorem Refines.argmax (h : Refines (pre ++ w :: post) b r)
    (hw : IsWorst Item.priority pre w post) : b.heap.argmax Item.key = some w := by
  have hmem : w ∈ b.heap := h.perm.subset (by simp)
  cases hmax : b.heap.argmax Item.key with
  | none => exact absurd (List.argmax_eq_none.mp hmax) (List.ne_nil_of_mem hmem)
  | some w' =>
    have hmem' := h.perm.symm.subset (List.argmax_mem hmax)
    have hkey : w'.key = w.key :=
      le_antisymm (hw.key_le h.arrived w' hmem') (List.le_of_mem_argmax hmem hmax)
    rw [h.eq_of_key hmem' (by simp) hkey]

theorem Refines.remove_perm (h : Refines (pre ++ w :: post) b r) :
    (PriorityEventBuffer.remove b.heap w).Perm (pre ++ post) := by
  have hmem : w ∈ b.heap := h.perm.subset (by simp)
  obtain ⟨w', l₁, l₂, -, hkey, hheap, herase⟩ := List.exists_of_eraseP
    (p := fun x : Item P => x.key = w.key) hmem (by simp)
  have hmem' : w' ∈ pre ++ w :: post := h.perm.symm.subset (by rw [hheap]; simp)
  obtain rfl : w' = w := h.eq_of_key hmem' (by simp) (by simpa using hkey)
  rw [PriorityEventBuffer.remove, herase]
  have hperm : (w' :: (l₁ ++ l₂)).Perm (w' :: (pre ++ post)) := by
    refine List.perm_middle.symm.trans ?_
    rw [← hheap]
    exact h.perm.symm.trans List.perm_middle
  exact hperm.cons_inv

/-- What is popped is the best item. -/
theorem Refines.heappop (h : Refines (pre ++ w :: post) b r)
    (hb : IsBest Item.priority pre w post) :
    ∃ rest, Python.heappop Item.key b.heap = some (w, rest) ∧ (pre ++ post).Perm rest := by
  have hmem : w ∈ b.heap := h.perm.subset (by simp)
  obtain ⟨x, rest, hpop, hperm⟩ : ∃ x rest, Python.heappop Item.key b.heap = some (x, rest) ∧
      (x :: rest).Perm b.heap := heappop_perm (List.ne_nil_of_mem hmem)
  have hx : x ∈ pre ++ w :: post := h.perm.symm.subset (hperm.subset List.mem_cons_self)
  have hkey : x.key = w.key :=
    le_antisymm (heappop_min h.isHeap hpop hmem) (hb.le_key h.arrived x hx)
  obtain rfl : x = w := h.eq_of_key hx (by simp) hkey
  refine ⟨rest, hpop, ?_⟩
  have hall : (x :: (pre ++ post)).Perm (x :: rest) :=
    List.perm_middle.symm.trans (h.perm.trans hperm.symm)
  exact hall.cons_inv

/-! ### One call -/

/-- A new item that is pushed is the last to arrive. -/
theorem Refines.push (h : Refines items b r) {heap kept : List (Item P)} (item : Item P)
    (dropped : ℕ) (hheap : IsHeap Item.key heap) (hperm : kept.Perm heap)
    (hkept : kept.Sublist items) (hcount : item.count = b.counter)
    (hrank : PRIORITY.lookup item.event.category = some item.priority) :
    Refines (kept ++ [item])
      { b with heap := heappush Item.key heap item, counter := b.counter + 1, dropped := dropped }
      { r with kept := kept.map Item.event ++ [item.event] } := by
  have hold : ∀ x ∈ kept, x.count < b.counter := fun x hx => h.counted x (hkept.subset hx)
  refine ⟨heappush_heap hheap item, ?_, ?_, List.map_append, fun x hx => ?_, fun x hx => ?_,
    h.maxsize⟩
  · exact (List.perm_append_singleton item kept).trans
      ((hperm.cons item).trans (heappush_perm heap item).symm)
  · refine List.pairwise_append.mpr ⟨h.arrived.sublist hkept, List.pairwise_singleton _ _, ?_⟩
    intro x hx y hy
    rw [List.mem_singleton.mp hy, hcount]
    exact hold x hx
  · rcases List.mem_append.mp hx with hx | hx
    · exact (hold x hx).trans (Nat.lt_succ_self _)
    · rw [List.mem_singleton.mp hx, hcount]
      exact Nat.lt_succ_self _
  · rcases List.mem_append.mp hx with hx | hx
    · exact h.ranked x (hkept.subset hx)
    · rwa [List.mem_singleton.mp hx]

/-- A new event is kept if it is better than the worst one. -/
theorem Refines.accepted_iff (h : Refines (pre ++ w :: post) b r)
    (hw : IsWorst Item.priority pre w post) (event : QueuedEvent P) :
    (∃ e ∈ r.kept, Backpressure.priorityOf event < Backpressure.priorityOf e) ↔
      Backpressure.priorityOf event < w.priority := by
  have hworst := h.priorityOf (show w ∈ _ by simp)
  rw [← h.kept]
  constructor
  · rintro ⟨e, he, hlt⟩
    obtain ⟨x, hx, rfl⟩ := List.mem_map.mp he
    rw [h.priorityOf hx] at hlt
    rcases List.mem_append.mp hx with hx | hx
    · exact hlt.trans_le (hw.before x hx)
    · rcases List.mem_cons.mp hx with rfl | hx
      · exact hlt
      · exact hlt.trans (hw.after x hx)
  · intro hlt
    exact ⟨w.event, List.mem_map_of_mem (by simp), by rwa [hworst]⟩

/-- What the reference does with the buffer full. -/
theorem Refines.dropWorst (h : Refines (pre ++ w :: post) b r)
    (hw : IsWorst Item.priority pre w post) (event : QueuedEvent P) :
    Backpressure.dropWorst Backpressure.priorityOf (r.kept ++ [event]) =
      if Backpressure.priorityOf event < w.priority then (pre ++ post).map Item.event ++ [event]
      else r.kept := by
  have hconcat := IsWorst.concat (h.picked hw) event
  rw [h.priorityOf (show w ∈ _ by simp), ← List.map_cons, ← List.map_append, h.kept,
    ← List.map_append] at hconcat
  exact hconcat

/-- **What `put` does.**  It answers like the reference, the buffer holds what the reference keeps,
and one more event is held or dropped. -/
theorem Refines.put (h : Refines items b r) (hmax : 1 ≤ b.maxsize) (event : QueuedEvent P) :
    (b.put event).1 = (r.put event).1 ∧
      (∃ items', Refines items' (b.put event).2 (r.put event).2) ∧
      (b.put event).2.heap.length + (b.put event).2.dropped =
        b.heap.length + b.dropped + if (b.put event).1.isOk then 1 else 0 := by
  unfold PriorityEventBuffer.put Reference.put
  cases hlookup : PRIORITY.lookup event.category with
  | none => exact ⟨rfl, ⟨items, h⟩, rfl⟩
  | some priority =>
    have hlength := h.length
    have hmaxsize := h.maxsize
    have hpriority : Backpressure.priorityOf event = priority := by
      rw [Backpressure.priorityOf, hlookup]
      rfl
    simp only [Option.isNone_some, Bool.false_eq_true, if_false, PriorityEventBuffer.add]
    by_cases hroom : (b.heap.length : ℤ) < b.maxsize
    · rw [if_pos hroom, if_pos (by omega)]
      have hpush := h.push ⟨priority, b.counter, event⟩ b.dropped h.isHeap h.perm
        (List.Sublist.refl _) rfl hlookup
      rw [h.kept] at hpush
      refine ⟨rfl, ⟨_, hpush⟩, ?_⟩
      rw [(heappush_perm b.heap _).length_eq]
      simp only [List.length_cons, Except.isOk, Except.toBool, if_true]
      omega
    · have hne : items ≠ [] := by
        rintro rfl
        have hnil := h.perm.length_eq
        rw [List.length_nil] at hnil
        omega
      obtain ⟨pre, w, post, rfl, hw⟩ := exists_isWorst Item.priority hne
      have haccepted := h.accepted_iff hw event
      have hdrop := h.dropWorst hw event
      rw [hpriority] at haccepted hdrop
      rw [if_neg hroom, if_neg (by omega), h.argmax hw]
      dsimp only
      by_cases hlt : priority < w.priority
      · rw [if_pos hlt] at hdrop
        simp only [if_pos hlt]
        have hremove := h.remove_perm
        have hheap : (heapify Item.key (PriorityEventBuffer.remove b.heap w)).Perm
            (PriorityEventBuffer.remove b.heap w) := heapify_perm _
        have hpush := h.push ⟨priority, b.counter, event⟩ (b.dropped + 1)
          (heapify_heap (PriorityEventBuffer.remove b.heap w)) (hremove.symm.trans hheap.symm)
          (List.Sublist.append_left (List.sublist_cons_self w post) pre) rfl hlookup
        rw [← hdrop] at hpush
        refine ⟨?_, ⟨_, hpush⟩, ?_⟩
        · simp [haccepted, hlt, hpriority]
        · have hsize := h.perm.length_eq
          rw [(heappush_perm _ _).length_eq, List.length_cons, hheap.length_eq, hremove.length_eq]
          simp only [List.length_append, List.length_cons, Except.isOk, Except.toBool,
            if_true] at hsize ⊢
          omega
      · rw [if_neg hlt] at hdrop
        simp only [if_neg hlt]
        refine ⟨?_, ⟨pre ++ w :: post, ?_⟩, ?_⟩
        · simp [haccepted, hlt, hpriority]
        · rw [hdrop]
          exact ⟨h.isHeap, h.perm, h.arrived, h.kept,
            fun x hx => (h.counted x hx).trans (Nat.lt_succ_self _), h.ranked, h.maxsize⟩
        · simp only [Except.isOk, Except.toBool, if_true]
          omega

/-- **What `get` does.** -/
theorem Refines.get (h : Refines items b r) :
    b.get.1 = r.get.1 ∧ (∃ items', Refines items' b.get.2 r.get.2) ∧
      b.get.2.heap.length + (if b.get.1.isOk then 1 else 0) = b.heap.length ∧
      b.get.2.dropped = b.dropped := by
  unfold PriorityEventBuffer.get Reference.get
  rcases eq_or_ne items [] with rfl | hne
  · have hheap : b.heap = [] := h.perm.nil_eq.symm
    have hpop : Python.heappop Item.key b.heap = none := by rw [hheap]; rfl
    have htake : takeBest Backpressure.priorityOf r.kept = none := by rw [← h.kept]; rfl
    rw [hpop, htake]
    exact ⟨rfl, ⟨[], h⟩, rfl, rfl⟩
  · obtain ⟨pre, w, post, rfl, hb⟩ := exists_isBest Item.priority hne
    obtain ⟨rest, hpop, hrest⟩ := h.heappop hb
    have hbest := IsBest.takeBest_eq (h.picked hb)
    rw [← List.map_cons, ← List.map_append, h.kept, ← List.map_append] at hbest
    rw [hpop, hbest]
    have hsub : (pre ++ post).Sublist (pre ++ w :: post) :=
      List.Sublist.append_left (List.sublist_cons_self w post) pre
    refine ⟨rfl, ⟨pre ++ post, heappop_heap h.isHeap hpop, hrest, h.arrived.sublist hsub, rfl,
      fun x hx => h.counted x (hsub.subset hx), fun x hx => h.ranked x (hsub.subset hx),
      h.maxsize⟩, ?_, rfl⟩
    have hsize := h.perm.length_eq
    rw [← hsize, ← hrest.length_eq]
    simp only [List.length_append, List.length_cons, Except.isOk, Except.toBool, if_true]
    omega

end Items

/-! ## 5. Runs -/

/-- The events whose `put` returned. -/
def putOf : Call P × Except Exc (Answer P) → Option (QueuedEvent P)
  | (.put event, .ok _) => some event
  | _ => none

/-- The events that `get` returned. -/
def gotOf : Call P × Except Exc (Answer P) → Option (QueuedEvent P)
  | (.get, .ok (.event e)) => some e
  | _ => none

def puts (past : List (Call P × Except Exc (Answer P))) : List (QueuedEvent P) :=
  past.filterMap putOf

def gots (past : List (Call P × Except Exc (Answer P))) : List (QueuedEvent P) :=
  past.filterMap gotOf

/-- The events of one category. -/
def ofCategory (category : String) (es : List (QueuedEvent P)) : List (QueuedEvent P) :=
  es.filter fun e => e.category = category

section Category

variable {category : String} {xs ys : List (QueuedEvent P)} {e : QueuedEvent P}

theorem ofCategory_append (category : String) (xs ys : List (QueuedEvent P)) :
    ofCategory category (xs ++ ys) = ofCategory category xs ++ ofCategory category ys :=
  List.filter_append xs ys

theorem ofCategory_sublist (category : String) (h : xs.Sublist ys) :
    (ofCategory category xs).Sublist (ofCategory category ys) :=
  h.filter _

theorem dropWorst_sublist {α : Type} {rank : α → ℕ} (xs : List α) :
    (dropWorst rank xs).Sublist xs := by
  induction xs with
  | nil => exact List.Sublist.refl _
  | cons x xs ih =>
    rw [dropWorst]
    split_ifs
    · exact List.sublist_cons_self x xs
    · exact ih.cons_cons x

/-- **The event that is taken** is the oldest of its category. -/
theorem ofCategory_takeBest {kept rest : List (QueuedEvent P)}
    (h : takeBest priorityOf kept = some (e, rest)) (category : String) :
    ofCategory category kept = ofCategory category [e] ++ ofCategory category rest := by
  have hne : kept ≠ [] := by
    rintro rfl
    cases h
  obtain ⟨pre, b, post, rfl, hb⟩ := exists_isBest priorityOf hne
  rw [hb.takeBest_eq, Option.some.injEq, Prod.mk.injEq] at h
  obtain ⟨rfl, rfl⟩ := h
  by_cases hcategory : b.category = category
  · have hpre : ofCategory category pre = [] := by
      refine List.filter_eq_nil_iff.mpr fun x hx => ?_
      have hlt := hb.before x hx
      rw [decide_eq_true_eq]
      rintro hx
      rw [priorityOf, priorityOf, hcategory, hx] at hlt
      exact lt_irrefl _ hlt
    rw [← List.singleton_append, ofCategory_append, ofCategory_append, ofCategory_append, hpre]
    rfl
  · have hb : ofCategory category [b] = [] := by simp [ofCategory, hcategory]
    rw [← List.singleton_append, ofCategory_append, ofCategory_append, ofCategory_append, hb]
    rfl

end Category

/-- What is kept was kept before, or is the event that was put. -/
theorem Reference.put_kept (r : Reference P) (event : QueuedEvent P) :
    (r.put event).2.kept.Sublist
      (r.kept ++ if (r.put event).1.isOk then [event] else []) := by
  unfold Reference.put
  by_cases hnone : (PRIORITY.lookup event.category).isNone
  · simp [hnone, Except.isOk, Except.toBool]
  · by_cases hroom : (r.kept.length : ℤ) + 1 ≤ r.maxsize
    · simp [hnone, hroom, Except.isOk, Except.toBool]
    · simpa [hnone, hroom, Except.isOk, Except.toBool] using dropWorst_sublist _

/-- The logs of the buffer and of the reference after the same calls. -/
structure Agreed (maxsize : ℤ) (l : Log (PriorityEventBuffer P) (Call P) (Except Exc (Answer P)))
    (r : Log (Reference P) (Call P) (Except Exc (Answer P))) : Prop where
  past : l.past = r.past
  refines : ∃ items, Refines items l.now r.now
  maxsize : r.now.maxsize = maxsize
  counted : (puts l.past).length = l.now.heap.length + (gots l.past).length + l.now.dropped
  inOrder : ∀ category, (ofCategory category (gots l.past) ++
    ofCategory category r.now.kept).Sublist (ofCategory category (puts l.past))

namespace Agreed

variable {maxsize : ℤ} {l : Log (PriorityEventBuffer P) (Call P) (Except Exc (Answer P))}
  {r : Log (Reference P) (Call P) (Except Exc (Answer P))}

theorem start : Agreed maxsize (Log.start ({ maxsize } : PriorityEventBuffer P))
    (Log.start ({ maxsize } : Reference P)) where
  past := rfl
  refines := ⟨[], fun i _ _ _ hi => absurd hi (Nat.not_lt_zero i), List.Perm.refl _,
    List.Pairwise.nil, rfl, fun _ hx => (List.not_mem_nil hx).elim,
    fun _ hx => (List.not_mem_nil hx).elim, rfl⟩
  maxsize := rfl
  counted := rfl
  inOrder := fun _ => List.Sublist.refl _

theorem put (h : Agreed maxsize l r) (hmax : 1 ≤ maxsize) (event : QueuedEvent P) :
    Agreed maxsize (l.call PriorityEventBuffer.call (.put event))
      (r.call Reference.call (.put event)) := by
  obtain ⟨items, hitems⟩ := h.refines
  obtain ⟨hanswer, hrefines, hsize⟩ :=
    hitems.put (by rw [hitems.maxsize, h.maxsize]; exact hmax) event
  have hcounted := h.counted
  have hpast : (l.call PriorityEventBuffer.call (.put event)).past =
      l.past ++ [(.put event, (r.now.put event).1)] := by rw [← hanswer]; rfl
  have hgots : gots (l.call PriorityEventBuffer.call (.put event)).past = gots l.past := by
    rw [hpast, gots, List.filterMap_append]
    exact List.append_nil _
  have hputs : puts (l.call PriorityEventBuffer.call (.put event)).past =
      puts l.past ++ if (r.now.put event).1.isOk then [event] else [] := by
    rw [hpast, puts, List.filterMap_append]
    cases (r.now.put event).1 <;> rfl
  refine ⟨?_, hrefines, ?_, ?_, fun category => ?_⟩
  · rw [hpast, Log.call_past, h.past]
    rfl
  · refine Eq.trans ?_ h.maxsize
    simp only [Log.call_now, Reference.call, Reference.put]
    split_ifs <;> rfl
  · rw [hgots, hputs, List.length_append, h.counted]
    rw [hanswer] at hsize
    change _ = (l.now.put event).2.heap.length + _ + (l.now.put event).2.dropped
    split_ifs at hsize ⊢ <;> simp only [List.length_nil, List.length_singleton] <;> omega
  · rw [hgots, hputs]
    have hkept := ofCategory_sublist category (r.now.put_kept event)
    rw [ofCategory_append] at hkept ⊢
    refine (List.Sublist.append_left hkept _).trans ?_
    rw [← List.append_assoc]
    exact (h.inOrder category).append_right _

theorem get (h : Agreed maxsize l r) :
    Agreed maxsize (l.call PriorityEventBuffer.call .get) (r.call Reference.call .get) := by
  obtain ⟨items, hitems⟩ := h.refines
  obtain ⟨hanswer, hrefines, hsize, hdropped⟩ := hitems.get
  have hpast : (l.call PriorityEventBuffer.call .get).past =
      l.past ++ [(.get, r.now.get.1)] := by rw [← hanswer]; rfl
  have hputs : puts (l.call PriorityEventBuffer.call .get).past = puts l.past := by
    rw [hpast, puts, List.filterMap_append]
    cases r.now.get.1 <;> exact List.append_nil _
  have hgots : gots (l.call PriorityEventBuffer.call .get).past =
      gots l.past ++ ((takeBest priorityOf r.now.kept).map Prod.fst).toList := by
    rw [hpast, gots, List.filterMap_append, Reference.get]
    cases takeBest priorityOf r.now.kept <;> rfl
  refine ⟨?_, hrefines, ?_, ?_, fun category => ?_⟩
  · rw [hpast, Log.call_past, h.past]
    rfl
  · refine Eq.trans ?_ h.maxsize
    simp only [Log.call_now, Reference.call, Reference.get]
    split <;> rfl
  · have hcounted := h.counted
    rw [hputs, hgots, List.length_append]
    change _ = l.now.get.2.heap.length + _ + l.now.get.2.dropped
    rw [hanswer, Reference.get] at hsize
    cases htake : takeBest priorityOf r.now.kept <;>
      simp [htake, Except.isOk, Except.toBool] at hsize ⊢ <;> omega
  · rw [hputs, hgots]
    have horder := h.inOrder category
    simp only [Log.call_now, Reference.call, Reference.get]
    cases htake : takeBest priorityOf r.now.kept with
    | none => simpa using horder
    | some e =>
      rw [ofCategory_takeBest htake category, ← List.append_assoc] at horder
      simpa [ofCategory_append] using horder

/-- **After the same calls** the logs agree. -/
theorem calls (hmax : 1 ≤ maxsize) (calls : List (Call P)) :
    Agreed maxsize ((Log.start { maxsize }).calls PriorityEventBuffer.call calls)
      ((Log.start { maxsize }).calls Reference.call calls) := by
  induction calls using List.reverseRecOn with
  | nil => exact start
  | append_singleton calls k ih =>
    rw [Log.calls_append, Log.calls_append]
    cases k with
    | put event => exact ih.put hmax event
    | get => exact ih.get

end Agreed

/-- **The buffer keeps the best events.** -/
theorem keeps_the_best {maxsize : ℤ} (hmax : 1 ≤ maxsize) (calls : List (Call P)) :
    let l := (Log.start { maxsize }).calls PriorityEventBuffer.call calls
    let r := (Log.start { maxsize }).calls Reference.call calls
    l.past = r.past ∧ (l.now.heap.map Item.event).Perm r.now.kept ∧
      (∀ category, (ofCategory category (gots l.past)).Sublist
        (ofCategory category (puts l.past))) ∧
      (puts l.past).length = l.now.heap.length + (gots l.past).length + l.now.dropped := by
  have hagreed := Agreed.calls hmax calls
  obtain ⟨items, hitems⟩ := hagreed.refines
  refine ⟨hagreed.past, ?_, fun category => ?_, hagreed.counted⟩
  · rw [← hitems.kept]
    exact (hitems.perm.map Item.event).symm
  · exact (List.sublist_append_left _ _).trans (hagreed.inOrder category)

/-- A full buffer with one place. -/
theorem keeps_the_best_one :
    (1 : ℤ) ≤ 1 ∧
    let calls : List (Call ℕ) :=
      [.put ⟨"scanner_low", 1⟩, .put ⟨"private_order_fill", 2⟩, .get, .get]
    let l := (Log.start { maxsize := 1 }).calls PriorityEventBuffer.call calls
    let r := (Log.start { maxsize := 1 }).calls Reference.call calls
    l.past = r.past ∧ (l.now.heap.map Item.event).Perm r.now.kept ∧
      (∀ category, (ofCategory category (gots l.past)).Sublist
        (ofCategory category (puts l.past))) ∧
      (puts l.past).length = l.now.heap.length + (gots l.past).length + l.now.dropped :=
  ⟨le_rfl, keeps_the_best le_rfl _⟩

end Kripto.Core.Backpressure
