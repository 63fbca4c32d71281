import Mathlib.Data.List.Basic

/-! Operations one after the other until one fails, and then a last one that cleans up. The `k`-th
operation of a run has the outcome `ok k`. -/

namespace Attempts

variable {α : Type*}

/-- With `past` behind it and the operations ahead: whether all of them succeeded, and all that were
made. -/
inductive Attempt (ok : ℕ → Bool) (cleanup : α) : List α → List α → Bool × List α → Prop
  | finished (past : List α) : Attempt ok cleanup past [] (true, past)
  | succeeds {past rest : List α} {op : α} {result : Bool × List α}
      (good : ok past.length = true) (later : Attempt ok cleanup (past ++ [op]) rest result) :
      Attempt ok cleanup past (op :: rest) result
  | fails {past rest : List α} {op : α} (bad : ok past.length = false) :
      Attempt ok cleanup past (op :: rest) (false, past ++ [op] ++ [cleanup])

variable {ok : ℕ → Bool} {cleanup : α} {past ops : List α} {result : Bool × List α}

theorem Attempt.step {op : α} {rest : List α}
    (bad : ok past.length = false → result = (false, past ++ [op] ++ [cleanup]))
    (good : ok past.length = true → Attempt ok cleanup (past ++ [op]) rest result) :
    Attempt ok cleanup past (op :: rest) result := by
  cases outcome : ok past.length with
  | false =>
      rw [bad outcome]
      exact .fails outcome
  | true => exact .succeeds outcome (good outcome)

theorem Attempt.cases (run : Attempt ok cleanup past ops result) :
    ((∀ j < ops.length, ok (past.length + j) = true) ∧ result = (true, past ++ ops)) ∨
      ∃ j < ops.length, (∀ i < j, ok (past.length + i) = true) ∧
        ok (past.length + j) = false ∧
          result = (false, past ++ ops.take (j + 1) ++ [cleanup]) := by
  induction run with
  | finished past => exact .inl ⟨fun j below => absurd below (Nat.not_lt_zero j), by simp⟩
  | @succeeds past rest op result good later ih =>
      have shift : ∀ j, (past ++ [op]).length + j = past.length + (j + 1) := by
        intro j
        rw [List.length_append, List.length_singleton]
        omega
      simp only [shift] at ih
      rcases ih with ⟨all, rfl⟩ | ⟨j, below, before, bad, rfl⟩
      · refine .inl ⟨fun j below => ?_, by simp⟩
        cases j with
        | zero => exact good
        | succ j => exact all j (Nat.lt_of_succ_lt_succ below)
      · refine .inr ⟨j + 1, Nat.succ_lt_succ below, fun i earlier => ?_, bad, by simp⟩
        cases i with
        | zero => exact good
        | succ i => exact before i (Nat.lt_of_succ_lt_succ earlier)
  | @fails past rest op bad =>
      exact .inr ⟨0, Nat.succ_pos _, fun i below => absurd below (Nat.not_lt_zero i), bad, by simp⟩

end Attempts
