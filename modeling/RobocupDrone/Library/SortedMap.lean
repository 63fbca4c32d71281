import Mathlib.Data.List.Pairwise
import Mathlib.Data.List.Perm.Basic
import Mathlib.Order.Lattice

/-! Maps as lists of entries in the order of their keys. -/

/-- A map whose entries go up with their keys. -/
structure SortedMap (κ ν : Type*) [LinearOrder κ] where
  entries : List (κ × ν)
  sorted : entries.Pairwise fun a b => a.1 < b.1

namespace SortedMap

variable {κ ν α : Type*} [LinearOrder κ]

section Entries

def find (k : κ) : List (κ × ν) → Option ν
  | [] => none
  | (key, value) :: rest => if key = k then some value else find k rest

/-- The entries with the one at `k` made by `f` from the value that was there. -/
def alterEntries (k : κ) (f : Option ν → ν) : List (κ × ν) → List (κ × ν)
  | [] => [(k, f none)]
  | (key, value) :: rest =>
      if k < key then (k, f none) :: (key, value) :: rest
      else if key = k then (key, f (some value)) :: rest
      else (key, value) :: alterEntries k f rest

variable {k j : κ} {f : Option ν → ν} {l : List (κ × ν)}

theorem find_eq_none (before : ∀ entry ∈ l, k < entry.1) : find k l = none := by
  induction l with
  | nil => rfl
  | cons entry rest ih =>
      rw [List.forall_mem_cons] at before
      rw [find, if_neg before.1.ne', ih before.2]

theorem find_eq_some_iff (sorted : l.Pairwise fun a b => a.1 < b.1) {value : ν} :
    find k l = some value ↔ (k, value) ∈ l := by
  induction l with
  | nil => simp [find]
  | cons entry rest ih =>
      rcases entry with ⟨key, first⟩
      rw [List.pairwise_cons] at sorted
      rw [find, List.mem_cons, Prod.mk.injEq]
      split_ifs with here
      · have later : (k, value) ∉ rest := fun member => (sorted.1 _ member).ne here
        simp [here, later, eq_comm]
      · rw [ih sorted.2]
        simp [Ne.symm here]

theorem mem_alterEntries {entry : κ × ν} (member : entry ∈ alterEntries k f l) :
    entry.1 = k ∨ entry ∈ l := by
  induction l with
  | nil =>
      rw [List.mem_singleton.mp member]
      exact .inl rfl
  | cons first rest ih =>
      rw [alterEntries] at member
      split_ifs at member with front here
      · rcases List.mem_cons.mp member with rfl | old
        · exact .inl rfl
        · exact .inr old
      · rcases List.mem_cons.mp member with rfl | old
        · exact .inl here
        · exact .inr (List.mem_cons_of_mem _ old)
      · rcases List.mem_cons.mp member with rfl | later
        · exact .inr List.mem_cons_self
        · exact (ih later).imp_right (List.mem_cons_of_mem _)

theorem alterEntries_sorted (sorted : l.Pairwise fun a b => a.1 < b.1) :
    (alterEntries k f l).Pairwise fun a b => a.1 < b.1 := by
  induction l with
  | nil => exact List.pairwise_singleton _ _
  | cons first rest ih =>
      rw [List.pairwise_cons] at sorted
      rw [alterEntries]
      split_ifs with front here
      · rw [List.pairwise_cons, List.forall_mem_cons]
        exact ⟨⟨front, fun entry later => front.trans (sorted.1 entry later)⟩,
          List.pairwise_cons.mpr sorted⟩
      · exact List.pairwise_cons.mpr sorted
      · have behind : first.1 < k := lt_of_le_of_ne (not_lt.mp front) here
        refine List.pairwise_cons.mpr ⟨fun entry member => ?_, ih sorted.2⟩
        rcases mem_alterEntries member with same | old
        · rwa [same]
        · exact sorted.1 entry old

theorem find_alterEntries (sorted : l.Pairwise fun a b => a.1 < b.1) :
    find j (alterEntries k f l) = if j = k then some (f (find k l)) else find j l := by
  induction l with
  | nil =>
      rw [alterEntries, find, find]
      simp only [eq_comm]
      rfl
  | cons first rest ih =>
      rcases first with ⟨key, value⟩
      rw [List.pairwise_cons] at sorted
      rw [alterEntries]
      by_cases front : k < key
      · rw [if_pos front]
        have nothing : find k ((key, value) :: rest) = none := by
          apply find_eq_none
          rw [List.forall_mem_cons]
          exact ⟨front, fun entry later => front.trans (sorted.1 entry later)⟩
        rw [nothing, find]
        simp only [eq_comm]
      · rw [if_neg front]
        by_cases here : key = k
        · rw [if_pos here, find, find, find, if_pos here, here]
          simp only [eq_comm]
          split_ifs <;> rfl
        · rw [if_neg here, find, find, find, if_neg here, ih sorted.2]
          by_cases same : j = k
          · rw [if_pos same, if_neg fun other => here (other.trans same), if_pos same]
          · rw [if_neg same, if_neg same]

end Entries

variable (m : SortedMap κ ν)

def empty : SortedMap κ ν := ⟨[], List.Pairwise.nil⟩

def get (k : κ) : Option ν := find k m.entries

/-- The map with the entry at `k` made by `f` from the value that was there. -/
def alter (k : κ) (f : Option ν → ν) : SortedMap κ ν :=
  ⟨alterEntries k f m.entries, alterEntries_sorted m.sorted⟩

variable {m}

theorem get_eq_some_iff {k : κ} {value : ν} : m.get k = some value ↔ (k, value) ∈ m.entries :=
  find_eq_some_iff m.sorted

theorem get_alter {k j : κ} {f : Option ν → ν} :
    (m.alter k f).get j = if j = k then some (f (m.get k)) else m.get j :=
  find_alterEntries m.sorted

section Groups

variable (key : α → κ)

/-- The items of a list by their keys, in the order of the list. -/
def push (m : SortedMap κ (List α)) (a : α) : SortedMap κ (List α) :=
  m.alter (key a) fun old => old.getD [] ++ [a]

variable {key}

theorem get_foldl_push (l : List α) (m : SortedMap κ (List α)) (k : κ) :
    (l.foldl (push key) m).get k =
      if l.filter (fun a => key a = k) = [] then m.get k
      else some ((m.get k).getD [] ++ l.filter fun a => key a = k) := by
  induction l generalizing m with
  | nil => rfl
  | cons a rest ih =>
      rw [List.foldl_cons, ih, push, get_alter]
      by_cases here : key a = k
      · rw [List.filter_cons_of_pos (by simpa using here), if_neg (List.cons_ne_nil _ _),
          if_pos here.symm, here, Option.getD_some, List.append_assoc, List.singleton_append]
        split_ifs with last
        · rw [last]
        · rfl
      · rw [List.filter_cons_of_neg (by simpa using here), if_neg (Ne.symm here)]

theorem alterEntries_push_perm (a : α) (l : List (κ × List α)) (k : κ) :
    ((alterEntries k (fun old => old.getD [] ++ [a]) l).flatMap Prod.snd).Perm
      (a :: l.flatMap Prod.snd) := by
  induction l with
  | nil => exact List.Perm.refl _
  | cons entry rest ih =>
      rcases entry with ⟨other, items⟩
      rw [alterEntries]
      split_ifs
      · exact List.Perm.refl _
      · rw [List.flatMap_cons, List.flatMap_cons, Option.getD_some, List.append_assoc]
        exact List.perm_middle
      · rw [List.flatMap_cons, List.flatMap_cons]
        exact (ih.append_left items).trans List.perm_middle

theorem foldl_push_perm (l : List α) (m : SortedMap κ (List α)) :
    ((l.foldl (push key) m).entries.flatMap Prod.snd).Perm (m.entries.flatMap Prod.snd ++ l) := by
  induction l generalizing m with
  | nil => rw [List.foldl_nil, List.append_nil]
  | cons a rest ih =>
      refine (ih (push key m a)).trans ?_
      refine ((alterEntries_push_perm a m.entries (key a)).append_right rest).trans ?_
      exact List.perm_middle.symm

end Groups

section Latest

variable (key : α → κ) (value : α → ν)

/-- The value of an item in the place of the one with its key. -/
def put (m : SortedMap κ ν) (a : α) : SortedMap κ ν := m.alter (key a) fun _ => value a

variable {key value}

theorem get_foldl_put (l : List α) (m : SortedMap κ ν) (k : κ) :
    (l.foldl (put key value) m).get k =
      (((l.filter fun a => key a = k).getLast?).map value).or (m.get k) := by
  induction l generalizing m with
  | nil => rfl
  | cons a rest ih =>
      rw [List.foldl_cons, ih, put, get_alter]
      by_cases here : key a = k
      · rw [List.filter_cons_of_pos (by simpa using here), if_pos here.symm, List.getLast?_cons]
        cases (rest.filter fun a => key a = k).getLast? <;> rfl
      · rw [List.filter_cons_of_neg (by simpa using here), if_neg (Ne.symm here)]

end Latest

section Least

variable {β : Type*} [LinearOrder α] (measure : ν → α)

def lesser (best : α × κ) (entry : κ × ν) : α × κ :=
  if measure entry.2 < best.1 then (measure entry.2, entry.1) else best

variable {measure}

theorem foldl_lesser {l : List (κ × ν)} (sorted : l.Pairwise fun a b => a.1 < b.1)
    (best : α × κ) :
    (l.foldl (lesser measure) best = best ∧ ∀ entry ∈ l, best.1 ≤ measure entry.2) ∨
      ∃ first ∈ l, l.foldl (lesser measure) best = (measure first.2, first.1) ∧
        measure first.2 < best.1 ∧ (∀ entry ∈ l, measure first.2 ≤ measure entry.2) ∧
        ∀ entry ∈ l, entry.1 < first.1 → measure first.2 < measure entry.2 := by
  induction l generalizing best with
  | nil => exact .inl ⟨rfl, by simp⟩
  | cons entry rest ih =>
      rw [List.pairwise_cons] at sorted
      rw [List.foldl_cons]
      by_cases better : measure entry.2 < best.1
      · have step : lesser measure best entry = (measure entry.2, entry.1) := if_pos better
        rw [step]
        rcases ih sorted.2 (measure entry.2, entry.1) with
          ⟨same, least⟩ | ⟨first, member, same, below, least, strict⟩
        · refine .inr ⟨entry, List.mem_cons_self, same, better, ?_, ?_⟩
          · exact List.forall_mem_cons.mpr ⟨le_rfl, least⟩
          · refine List.forall_mem_cons.mpr ⟨fun before => absurd before (lt_irrefl _), ?_⟩
            exact fun other later before => absurd (sorted.1 other later) before.not_gt
        · refine .inr ⟨first, List.mem_cons_of_mem _ member, same, below.trans better, ?_, ?_⟩
          · exact List.forall_mem_cons.mpr ⟨below.le, least⟩
          · exact List.forall_mem_cons.mpr ⟨fun _ => below, strict⟩
      · have step : lesser measure best entry = best := if_neg better
        rw [step]
        rcases ih sorted.2 best with ⟨same, least⟩ | ⟨first, member, same, below, least, strict⟩
        · exact .inl ⟨same, List.forall_mem_cons.mpr ⟨not_lt.mp better, least⟩⟩
        · have above : measure first.2 < measure entry.2 := below.trans_le (not_lt.mp better)
          refine .inr ⟨first, List.mem_cons_of_mem _ member, same, below, ?_, ?_⟩
          · exact List.forall_mem_cons.mpr ⟨above.le, least⟩
          · exact List.forall_mem_cons.mpr ⟨fun _ => above, strict⟩

end Least

end SortedMap
