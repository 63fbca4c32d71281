import Mathlib.Data.List.Nodup
import Mathlib.Logic.Equiv.Basic
import Mathlib.Order.WithBot

/-! Binary heaps in a list, the least key first. The keys belong to the elements and may change
while the elements are in the heap. -/

namespace KeyedHeap

def parent (i : ℕ) : ℕ := (i - 1) / 2

theorem parent_lt {i : ℕ} (later : 0 < i) : parent i < i := by
  rw [parent]
  omega

theorem parent_eq_iff {i p : ℕ} (later : 0 < i) : parent i = p ↔ i = 2 * p + 1 ∨ i = 2 * p + 2 := by
  rw [parent]
  omega

section Order

theorem swap_other {L : Type*} {order : ℕ → L} {a b j : ℕ} (not_a : j ≠ a) (not_b : j ≠ b) :
    (order ∘ Equiv.swap a b) j = order j := by
  rw [Function.comp_apply, Equiv.swap_apply_of_ne_of_ne not_a not_b]

theorem swap_first {L : Type*} (order : ℕ → L) (a b : ℕ) :
    (order ∘ Equiv.swap a b) a = order b := by
  rw [Function.comp_apply, Equiv.swap_apply_left]

theorem swap_second {L : Type*} (order : ℕ → L) (a b : ℕ) :
    (order ∘ Equiv.swap a b) b = order a := by
  rw [Function.comp_apply, Equiv.swap_apply_right]

variable {L : Type*} [LinearOrder L] {order : ℕ → L} {i c : ℕ}

def Ordered (order : ℕ → L) : Prop := ∀ j > 0, order (parent j) ≤ order j

/-- Only the key at `i` may be below that of its parent. -/
structure OrderedUpTo (order : ℕ → L) (i : ℕ) : Prop where
  others : ∀ j > 0, j ≠ i → order (parent j) ≤ order j
  bridge : ∀ j > 0, parent j = i → 0 < i → order (parent i) ≤ order j

/-- Only the key at `i` may be out of place. -/
structure OrderedBut (order : ℕ → L) (i : ℕ) : Prop where
  others : ∀ j > 0, j ≠ i → parent j ≠ i → order (parent j) ≤ order j
  bridge : ∀ j > 0, parent j = i → 0 < i → order (parent i) ≤ order j

theorem OrderedUpTo.ordered (partly : OrderedUpTo order i)
    (placed : 0 < i → order (parent i) ≤ order i) : Ordered order := by
  intro j later
  by_cases here : j = i
  · rw [here] at later ⊢
    exact placed later
  · exact partly.others j later here

theorem OrderedUpTo.rise (partly : OrderedUpTo order i) (later : 0 < i)
    (below : order i < order (parent i)) :
    OrderedUpTo (order ∘ Equiv.swap i (parent i)) (parent i) := by
  have up := parent_lt later
  constructor
  · intro j positive elsewhere
    by_cases here : j = i
    · rw [here, swap_first, swap_second]
      exact below.le
    rw [swap_other here elsewhere]
    by_cases child : parent j = i
    · rw [child, swap_first]
      exact partly.bridge j positive child later
    by_cases sibling : parent j = parent i
    · rw [sibling, swap_second]
      have ordered := partly.others j positive here
      rw [sibling] at ordered
      exact below.le.trans ordered
    · rw [swap_other child sibling]
      exact partly.others j positive here
  · intro j positive child above
    have upper := parent_lt above
    have ordered := partly.others (parent i) above up.ne
    rw [swap_other (by omega) upper.ne]
    by_cases here : j = i
    · rwa [here, swap_first]
    · have lower := partly.others j positive here
      have down := parent_lt positive
      rw [child] at lower down
      rw [swap_other here down.ne']
      exact ordered.trans lower

theorem OrderedBut.sink (partly : OrderedBut order i) (later : 0 < c) (child : parent c = i)
    (least : ∀ j > 0, parent j = i → order c ≤ order j) :
    OrderedBut (order ∘ Equiv.swap i c) c := by
  have down := parent_lt later
  rw [child] at down
  constructor
  · intro j positive elsewhere apart
    by_cases here : j = i
    · rw [here] at positive ⊢
      have up := parent_lt positive
      rw [swap_first, swap_other up.ne (by omega)]
      exact partly.bridge c later child positive
    rw [swap_other here elsewhere]
    by_cases sibling : parent j = i
    · rw [sibling, swap_first]
      exact least j positive sibling
    · rw [swap_other sibling apart]
      exact partly.others j positive here sibling
  · intro j positive below _
    have further := parent_lt positive
    rw [below] at further
    have ordered := partly.others j positive (by omega) (by omega)
    rw [below] at ordered
    rwa [child, swap_first, swap_other (by omega) further.ne']

theorem OrderedBut.upTo (partly : OrderedBut order i)
    (least : ∀ j > 0, parent j = i → order i ≤ order j) : OrderedUpTo order i where
  others j later elsewhere := by
    by_cases child : parent j = i
    · rw [child]
      exact least j later child
    · exact partly.others j later elsewhere child
  bridge := partly.bridge

theorem Ordered.first_le (ordered : Ordered order) (j : ℕ) : order 0 ≤ order j := by
  induction j using Nat.strong_induction_on with
  | _ j ih =>
      rcases Nat.eq_zero_or_pos j with rfl | later
      · exact le_rfl
      · exact (ih (parent j) (parent_lt later)).trans (ordered j later)

end Order

section Places

variable {α : Type*}

def swapAt (l : List α) (i j : ℕ) : List α :=
  match l[i]?, l[j]? with
  | some a, some b => (l.set i b).set j a
  | _, _ => l

theorem swapAt_perm (l : List α) (i j : ℕ) : (swapAt l i j).Perm l := by
  rw [swapAt]
  split
  next a b here there =>
    obtain ⟨inside, rfl⟩ := List.getElem?_eq_some_iff.mp here
    obtain ⟨within, rfl⟩ := List.getElem?_eq_some_iff.mp there
    exact List.set_set_perm inside within
  next => exact List.Perm.refl l

theorem getElem?_swapAt {l : List α} {i j : ℕ} (inside : i < l.length) (within : j < l.length)
    (k : ℕ) : (swapAt l i j)[k]? = l[Equiv.swap i j k]? := by
  rw [swapAt, List.getElem?_eq_getElem inside, List.getElem?_eq_getElem within,
    Equiv.swap_apply_def]
  simp only [List.getElem?_set, List.length_set]
  grind

/-- The keys by place, with the greatest one beyond the end of the list. -/
def order {K : Type*} (key : α → K) (l : List α) (i : ℕ) : WithTop K :=
  (l[i]?).elim ⊤ fun a => key a

variable {K : Type*} {key : α → K} {l : List α} {i j : ℕ}

theorem order_eq_key {a : α} (here : l[i]? = some a) : order key l i = key a := by
  rw [order, here, Option.elim_some]

theorem order_beyond (outside : l.length ≤ i) : order key l i = ⊤ := by
  rw [order, List.getElem?_eq_none outside, Option.elim_none]

theorem order_swapAt (inside : i < l.length) (within : j < l.length) :
    order key (swapAt l i j) = order key l ∘ Equiv.swap i j := by
  funext k
  rw [Function.comp_apply, order, order, getElem?_swapAt inside within]

end Places

variable {α K : Type*} [LinearOrder K] (key : α → K)

/-- Whether the element at `i` has a key below that of the element at `j`. -/
def below (l : List α) (i j : ℕ) : Bool :=
  match l[i]?, l[j]? with
  | some a, some b => decide (key a < key b)
  | _, _ => false

def siftUp : ℕ → List α → ℕ → List α
  | 0, l, _ => l
  | fuel + 1, l, i =>
      if 0 < i ∧ below key l i (parent i) then siftUp fuel (swapAt l i (parent i)) (parent i) else l

def lesserChild (l : List α) (i : ℕ) : ℕ :=
  if 2 * i + 2 < l.length ∧ ¬below key l (2 * i + 1) (2 * i + 2) then 2 * i + 2 else 2 * i + 1

/-- The element at `i` changes places with the lesser of its children, down to the last row. -/
def sink : ℕ → List α → ℕ → List α × ℕ
  | 0, l, i => (l, i)
  | fuel + 1, l, i =>
      if 2 * i + 1 < l.length then
        sink fuel (swapAt l i (lesserChild key l i)) (lesserChild key l i)
      else (l, i)

def push (a : α) (l : List α) : List α := siftUp key l.length (l ++ [a]) l.length

/-- The heap without its first element: the last one takes its place, sinks to the last row and
rises from there. -/
def pop : List α → List α
  | [] => []
  | _ :: rest =>
      match rest.getLast? with
      | none => []
      | some last =>
          let (sunk, i) := sink key rest.length (last :: rest.dropLast) 0
          siftUp key rest.length sunk i

theorem siftUp_perm (fuel : ℕ) (l : List α) (i : ℕ) : (siftUp key fuel l i).Perm l := by
  induction fuel generalizing l i with
  | zero => exact List.Perm.refl l
  | succ fuel ih =>
      rw [siftUp]
      split
      · exact (ih _ _).trans (swapAt_perm l i (parent i))
      · exact List.Perm.refl l

theorem sink_perm (fuel : ℕ) (l : List α) (i : ℕ) : (sink key fuel l i).1.Perm l := by
  induction fuel generalizing l i with
  | zero => exact List.Perm.refl l
  | succ fuel ih =>
      rw [sink]
      split
      · exact (ih _ _).trans (swapAt_perm l i _)
      · exact List.Perm.refl l

theorem push_perm (a : α) (l : List α) : (push key a l).Perm (a :: l) :=
  (siftUp_perm key _ _ _).trans (List.perm_append_singleton a l)

theorem pop_perm (top : α) (rest : List α) : (pop key (top :: rest)).Perm rest := by
  rw [pop]
  split
  next empty => rw [List.getLast?_eq_none_iff.mp empty]
  next last final =>
    have restored : rest.dropLast ++ [last] = rest := by
      obtain ⟨front, rfl⟩ := List.getLast?_eq_some_iff.mp final
      rw [List.dropLast_concat]
    have sunk := sink_perm key rest.length (last :: rest.dropLast) 0
    calc
      List.Perm _ (sink key rest.length (last :: rest.dropLast) 0).1 := siftUp_perm key _ _ _
      List.Perm _ (last :: rest.dropLast) := sunk
      List.Perm _ (rest.dropLast ++ [last]) := (List.perm_append_singleton _ _).symm
      _ = rest := restored

def IsHeap (l : List α) : Prop := Ordered (order key l)

variable {key} {l : List α} {i j : ℕ}

theorem IsHeap.congr {other : α → K} (heap : IsHeap key l) (same : ∀ a ∈ l, other a = key a) :
    IsHeap other l := by
  have orders : order other l = order key l := by
    funext k
    rw [order, order]
    rcases here : l[k]? with _ | a
    · rfl
    · rw [Option.elim_some, Option.elim_some, same a (List.mem_of_getElem? here)]
  rwa [IsHeap, orders]

theorem below_iff (inside : i < l.length) (within : j < l.length) :
    below key l i j = true ↔ order key l i < order key l j := by
  rw [below, order, order, List.getElem?_eq_getElem inside, List.getElem?_eq_getElem within]
  simp

theorem siftUp_isHeap {fuel : ℕ} (partly : OrderedUpTo (order key l) i) (inside : i < l.length)
    (enough : i ≤ fuel) : IsHeap key (siftUp key fuel l i) := by
  induction fuel generalizing l i with
  | zero =>
      apply partly.ordered
      omega
  | succ fuel ih =>
      rw [siftUp]
      split
      next rises =>
        have up := parent_lt rises.1
        have lower := (below_iff inside (up.trans inside)).mp rises.2
        apply ih
        · rw [order_swapAt inside (up.trans inside)]
          exact partly.rise rises.1 lower
        · rw [(swapAt_perm l i (parent i)).length_eq]
          exact up.trans inside
        · omega
      next placed =>
        apply partly.ordered
        intro later
        have up := parent_lt later
        have higher := mt (below_iff inside (up.trans inside)).mpr fun rises =>
          placed ⟨later, rises⟩
        exact not_lt.mp higher

theorem lesserChild_least (key : α → K) (inner : 2 * i + 1 < l.length) :
    0 < lesserChild key l i ∧ parent (lesserChild key l i) = i ∧ lesserChild key l i < l.length ∧
      ∀ k > 0, parent k = i → order key l (lesserChild key l i) ≤ order key l k := by
  rw [lesserChild]
  split
  next second =>
    have higher := mt (below_iff inner second.1).mpr second.2
    refine ⟨by omega, by rw [parent]; omega, second.1, ?_⟩
    intro k later child
    rcases (parent_eq_iff later).mp child with rfl | rfl
    · exact not_lt.mp higher
    · exact le_rfl
  next first =>
    refine ⟨by omega, by rw [parent]; omega, inner, ?_⟩
    intro k later child
    rcases (parent_eq_iff later).mp child with rfl | rfl
    · exact le_rfl
    · by_cases present : 2 * i + 2 < l.length
      · apply le_of_lt
        rw [← below_iff inner present]
        by_contra higher
        exact first ⟨present, higher⟩
      · rw [order_beyond (not_lt.mp present)]
        exact le_top

theorem sink_upTo {fuel : ℕ} (partly : OrderedBut (order key l) i) (inside : i < l.length)
    (enough : l.length ≤ fuel + i) :
    OrderedUpTo (order key (sink key fuel l i).1) (sink key fuel l i).2 ∧
      (sink key fuel l i).2 < l.length := by
  induction fuel generalizing l i with
  | zero => omega
  | succ fuel ih =>
      rw [sink]
      split
      next inner =>
        obtain ⟨later, child, present, least⟩ := lesserChild_least key inner
        have down := parent_lt later
        have kept := (swapAt_perm l i (lesserChild key l i)).length_eq
        rw [← kept]
        apply ih
        · rw [order_swapAt inside present]
          exact partly.sink later child least
        · rwa [kept]
        · omega
      next last =>
        refine ⟨partly.upTo ?_, inside⟩
        intro k later child
        have beyond : l.length ≤ k := by
          have places := (parent_eq_iff later).mp child
          omega
        rw [order_beyond beyond]
        exact le_top

theorem push_isHeap (heap : IsHeap key l) (a : α) : IsHeap key (push key a l) := by
  have front : ∀ k < l.length, order key (l ++ [a]) k = order key l k := by
    intro k inside
    rw [order, order, List.getElem?_append_left inside]
  have beyond : ∀ k > l.length, order key (l ++ [a]) k = ⊤ := by
    intro k outside
    apply order_beyond
    rw [List.length_append, List.length_singleton]
    omega
  apply siftUp_isHeap _ (by simp) le_rfl
  constructor
  · intro k later elsewhere
    have up := parent_lt later
    rcases lt_or_gt_of_ne elsewhere with inside | outside
    · rw [front k inside, front _ (up.trans inside)]
      exact heap k later
    · rw [beyond k outside]
      exact le_top
  · intro k later child _
    have down := parent_lt later
    rw [beyond k (by omega)]
    exact le_top

theorem pop_isHeap (heap : IsHeap key l) : IsHeap key (pop key l) := by
  rcases l with _ | ⟨top, rest⟩
  · exact heap
  rw [pop]
  split
  next =>
    intro k _
    exact le_top
  next last final =>
    obtain ⟨front, rfl⟩ := List.getLast?_eq_some_iff.mp final
    rw [List.dropLast_concat]
    have same : ∀ k > 0, k < front.length + 1 →
        order key (last :: front) k = order key (top :: (front ++ [last])) k := by
      intro k later inside
      obtain ⟨k, rfl⟩ := Nat.exists_eq_succ_of_ne_zero later.ne'
      rw [order, order, List.getElem?_cons_succ, List.getElem?_cons_succ,
        List.getElem?_append_left (by omega)]
    have partly : OrderedBut (order key (last :: front)) 0 := by
      constructor
      · intro k later _ apart
        have up := parent_lt later
        by_cases inside : k < front.length + 1
        · rw [same k later inside, same _ (Nat.pos_of_ne_zero apart) (up.trans inside)]
          exact heap k later
        · have beyond : (last :: front).length ≤ k := not_lt.mp inside
          rw [order_beyond beyond]
          exact le_top
      · intro k _ _ none_above
        exact absurd none_above (lt_irrefl 0)
    have enough : (last :: front).length ≤ (front ++ [last]).length + 0 := by simp
    have sunk := sink_upTo partly (Nat.succ_pos _) enough
    apply siftUp_isHeap sunk.1
    · rw [(sink_perm key _ _ _).length_eq]
      exact sunk.2
    · have bound := sunk.2
      simp only [List.length_cons, List.length_append, List.length_nil] at bound ⊢
      omega

theorem IsHeap.first_le {top : α} {rest : List α} (heap : IsHeap key (top :: rest)) {a : α}
    (member : a ∈ top :: rest) : key top ≤ key a := by
  obtain ⟨k, inside, here⟩ := List.getElem_of_mem member
  have least := Ordered.first_le heap k
  rw [order_eq_key (List.getElem?_eq_some_iff.mpr ⟨inside, here⟩),
    order_eq_key (List.getElem?_cons_zero)] at least
  exact WithTop.coe_le_coe.mp least

theorem IsHeap.lowered {lowered : α → K} (heap : IsHeap key l) (distinct : l.Nodup) {a : α}
    (here : l[i]? = some a) (falls : lowered a ≤ key a) (others : ∀ b ≠ a, lowered b = key b)
    (placed : 0 < i → order lowered l (parent i) ≤ order lowered l i) : IsHeap lowered l := by
  obtain ⟨inside, rfl⟩ := List.getElem?_eq_some_iff.mp here
  have same : ∀ k ≠ i, order lowered l k = order key l k := by
    intro k elsewhere
    rw [order, order]
    rcases there : l[k]? with _ | b
    · rfl
    · obtain ⟨within, rfl⟩ := List.getElem?_eq_some_iff.mp there
      have other : l[k] ≠ l[i] := fun equal =>
        elsewhere (distinct.getElem_inj_iff.mp equal)
      rw [Option.elim_some, Option.elim_some, others _ other]
  have lower : order lowered l i ≤ order key l i := by
    rw [order_eq_key here, order_eq_key here]
    exact WithTop.coe_le_coe.mpr falls
  apply OrderedUpTo.ordered _ placed
  constructor
  · intro k later elsewhere
    rw [same k elsewhere]
    by_cases child : parent k = i
    · have ordered := heap k later
      rw [child] at ordered ⊢
      exact lower.trans ordered
    · rw [same _ child]
      exact heap k later
  · intro k later child positive
    have up := parent_lt positive
    have down := parent_lt later
    have upper := heap i positive
    have ordered := heap k later
    rw [child] at down ordered
    rw [same k down.ne', same _ up.ne]
    exact upper.trans ordered

end KeyedHeap
