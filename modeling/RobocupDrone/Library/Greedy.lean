import Mathlib.Data.List.Count
import Mathlib.Data.List.Pairwise

/-! Greedy selection: the first item is taken and the later ones that it hits are dropped. -/

namespace Greedy

variable {α : Type*} (hits : α → α → Bool)

/-- The items that `a` does not hit. -/
def spared (a : α) (l : List α) : List α := l.filter fun b => !hits a b

def select : List α → List α
  | [] => []
  | a :: rest => a :: select (spared hits a rest)
termination_by l => l.length
decreasing_by
  rw [List.length_cons]
  exact Nat.lt_succ_of_le (List.length_filter_le _ _)

variable {hits}

theorem select_sublist (l : List α) : (select hits l).Sublist l := by
  fun_induction select hits l with
  | case1 => exact List.Sublist.refl _
  | case2 a rest ih => exact (ih.trans List.filter_sublist).cons_cons a

theorem select_pairwise (l : List α) :
    (select hits l).Pairwise fun a b => ¬hits a b = true := by
  fun_induction select hits l with
  | case1 => exact List.Pairwise.nil
  | case2 a rest ih =>
      refine List.pairwise_cons.mpr ⟨fun b member => ?_, ih⟩
      have kept := List.mem_filter.mp ((select_sublist _).subset member)
      simpa using kept.2

theorem select_covers [DecidableEq α] {R : α → α → Prop} {l : List α} (sorted : l.Pairwise R)
    {d : α} (dropped : (select hits l).count d < l.count d) :
    ∃ a ∈ select hits l, hits a d = true ∧ R a d := by
  fun_induction select hits l with
  | case1 => simp at dropped
  | case2 a rest ih =>
      rw [List.pairwise_cons] at sorted
      rw [List.count_cons, List.count_cons] at dropped
      have left : (select hits (spared hits a rest)).count d < rest.count d := by
        omega
      have later : d ∈ rest := List.count_pos_iff.mp (by omega)
      by_cases hit : hits a d = true
      · exact ⟨a, List.mem_cons_self, hit, sorted.1 d later⟩
      · have same : (spared hits a rest).count d = rest.count d :=
          List.count_filter (by simpa using hit)
        rcases ih (sorted.2.filter _) (same ▸ left) with ⟨b, member, covers⟩
        exact ⟨b, List.mem_cons_of_mem a member, covers⟩

end Greedy
