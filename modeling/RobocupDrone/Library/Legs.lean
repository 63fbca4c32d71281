import Mathlib.Algebra.BigOperators.Group.List.Basic
import Mathlib.Algebra.Order.Monoid.Defs
import Mathlib.Data.List.Chain
import Mathlib.Data.List.GetD
import RobocupDrone.Library.Numerals

/-! Paths through given points, with further points inserted on the legs between them. -/

namespace Legs

variable {α M : Type*}

/-- The path from `a` through the points, with those that are inserted on its legs. -/
def refine (inserted : α → α → List α) : α → List α → List α
  | a, [] => [a]
  | a, b :: rest => a :: inserted a b ++ refine inserted b rest

def total [AddMonoid M] (f : α → α → M) : α → List α → M
  | _, [] => 0
  | a, b :: rest => f a b + total f b rest

variable {inserted : α → α → List α}

@[simp] theorem head?_refine (a : α) (rest : List α) : (refine inserted a rest).head? = some a := by
  cases rest <;> rfl

theorem getLast?_refine (a : α) (rest : List α) :
    (refine inserted a rest).getLast? = (a :: rest).getLast? := by
  induction rest generalizing a with
  | nil => rfl
  | cons b rest ih =>
      have later := ih b
      rw [refine, List.getLast?_append, later, List.getLast?_cons_cons]
      cases last : (b :: rest).getLast? with
      | none => simp at last
      | some c => rfl

theorem sublist_refine (a : α) (rest : List α) : (a :: rest).Sublist (refine inserted a rest) := by
  induction rest generalizing a with
  | nil => exact List.Sublist.refl _
  | cons b rest ih =>
      rw [refine, List.cons_append]
      exact ((ih b).trans (List.sublist_append_right _ _)).cons_cons a

theorem isChain_refine {R : α → α → Prop}
    (leg : ∀ a b, (a :: inserted a b ++ [b]).IsChain R) (a : α) (rest : List α) :
    (refine inserted a rest).IsChain R := by
  induction rest generalizing a with
  | nil => exact List.isChain_singleton a
  | cons b rest ih =>
      obtain ⟨within, -, across⟩ := List.isChain_append.mp (leg a b)
      refine List.isChain_append.mpr ⟨within, ih b, fun x last y first => ?_⟩
      rw [head?_refine] at first
      exact across x last y first

theorem length_refine (a : α) (rest : List α) :
    (refine inserted a rest).length =
      rest.length + 1 + total (fun a b => (inserted a b).length) a rest := by
  induction rest generalizing a with
  | nil => rfl
  | cons b rest ih =>
      rw [refine, List.length_append, ih b, List.length_cons, List.length_cons, total]
      omega

theorem refine_eq_flatMap (a : α) (rest : List α) (other : α) :
    refine inserted a rest =
      (List.range rest.length).flatMap (fun i =>
        (a :: rest).getD i other ::
          inserted ((a :: rest).getD i other) ((a :: rest).getD (i + 1) other)) ++
        [(a :: rest).getD rest.length other] := by
  induction rest generalizing a with
  | nil => rfl
  | cons b rest ih =>
      rw [refine, ih b, List.length_cons, List.range_succ_eq_map, List.flatMap_cons,
        List.flatMap_map, List.append_assoc]
      rfl

theorem foldl_eq_total [AddMonoid M] (f : α → α → M) (a : α) (rest : List α) (other : α)
    (start : M) : (List.range rest.length).foldl (fun sum i =>
        sum + f ((a :: rest).getD i other) ((a :: rest).getD (i + 1) other)) start =
      start + total f a rest := by
  induction rest generalizing a start with
  | nil => exact (add_zero start).symm
  | cons b rest ih =>
      rw [total, ← add_assoc, ← ih b, List.length_cons, List.range_succ_eq_map, List.foldl_cons,
        List.foldl_map]
      rfl

theorem map_total {N : Type*} [AddMonoid M] [AddMonoid N] (φ : M →+ N) (f : α → α → M) (a : α)
    (rest : List α) : φ (total f a rest) = total (fun a b => φ (f a b)) a rest := by
  induction rest generalizing a with
  | nil => exact map_zero φ
  | cons b rest ih => rw [total, map_add, ih b, total]

theorem total_le_total [AddCommMonoid M] [PartialOrder M] [IsOrderedAddMonoid M] {f g : α → α → M}
    (leg : ∀ a b, f a b ≤ g a b) (a : α) (rest : List α) : total f a rest ≤ total g a rest := by
  induction rest generalizing a with
  | nil => exact le_rfl
  | cons b rest ih => exact add_le_add (leg a b) (ih b)

end Legs
