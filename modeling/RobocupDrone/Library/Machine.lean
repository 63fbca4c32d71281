import Mathlib.Data.List.Basic
import Mathlib.Data.List.TakeWhile

/-! Input-driven machines, and properties of every step of their runs. -/

namespace Reactive

/-- A machine that answers each input with a new state and a list of outputs.
Several states may be possible at the start. -/
structure Machine (σ ι ω : Type*) where
  start : σ → Prop
  step : σ → ι → σ × List ω

structure Transition (σ ι : Type*) where
  pre : σ
  input : ι

abbrev History (σ ι : Type*) := List (Transition σ ι)

variable {σ ι ω : Type*}

/-- `Throughout P history`: every transition of the history satisfies `P` together
with its own past. -/
def Throughout (P : Transition σ ι → History σ ι → Prop) : History σ ι → Prop
  | [] => True
  | t :: past => P t past ∧ Throughout P past

section Histories

variable {P Q : Transition σ ι → History σ ι → Prop}

@[simp] theorem throughout_nil : Throughout P [] := trivial

@[simp] theorem throughout_cons (t : Transition σ ι) (past : History σ ι) :
    Throughout P (t :: past) ↔ P t past ∧ Throughout P past := Iff.rfl

theorem Throughout.mono {history : History σ ι} (holds : Throughout P history)
    (weaker : ∀ t past, P t past → Q t past) : Throughout Q history := by
  induction history with
  | nil => trivial
  | cons head tail ih => exact ⟨weaker _ _ holds.1, ih holds.2⟩

theorem Throughout.congr {history : History σ ι}
    (same : Throughout (fun t past => P t past ↔ Q t past) history) :
    Throughout P history ↔ Throughout Q history := by
  induction history with
  | nil => simp
  | cons head tail ih => exact and_congr same.1 (ih same.2)

theorem throughout_and (history : History σ ι) :
    Throughout (fun t past => P t past ∧ Q t past) history ↔
      Throughout P history ∧ Throughout Q history := by
  induction history with
  | nil => simp
  | cons head tail ih =>
      simp only [throughout_cons, ih]
      tauto

instance Throughout.decidable [∀ t past, Decidable (P t past)] :
    ∀ history : History σ ι, Decidable (Throughout P history)
  | [] => isTrue trivial
  | t :: past =>
      match inferInstanceAs (Decidable (P t past)), Throughout.decidable past with
      | isTrue newest, isTrue older => isTrue ⟨newest, older⟩
      | isFalse newest, _ => isFalse fun holds => newest holds.1
      | _, isFalse older => isFalse fun holds => older holds.2

/-- The transitions made after the last one marked by `mark`. -/
def since (mark : Transition σ ι → Bool) (history : History σ ι) : History σ ι :=
  history.takeWhile fun t => !mark t

variable (mark : Transition σ ι → Bool)

@[simp] theorem since_nil : since mark [] = [] := rfl

theorem since_cons_marked {t : Transition σ ι} (marked : mark t = true)
    (past : History σ ι) : since mark (t :: past) = [] := by
  simp [since, marked]

theorem since_cons_unmarked {t : Transition σ ι} (unmarked : mark t = false)
    (past : History σ ι) : since mark (t :: past) = t :: since mark past := by
  simp [since, unmarked]

/-- The oldest transition marked by `mark`. -/
def first : History σ ι → Option (Transition σ ι)
  | [] => none
  | t :: past => (first past).or (if mark t = true then some t else none)

@[simp] theorem first_nil : first mark [] = none := rfl

theorem first_cons_unmarked {t : Transition σ ι} (unmarked : mark t = false)
    (past : History σ ι) : first mark (t :: past) = first mark past := by
  simp [first, unmarked]

theorem first_cons_marked {t : Transition σ ι} (marked : mark t = true) {past : History σ ι}
    (none_before : first mark past = none) : first mark (t :: past) = some t := by
  simp [first, marked, none_before]

theorem first_cons_some {g : Transition σ ι} {past : History σ ι}
    (before : first mark past = some g) (t : Transition σ ι) :
    first mark (t :: past) = some g := by
  simp [first, before]

end Histories

section Latches

def SetSince (sets resets : ω → Prop) (trace : List ω) : Prop :=
  ∃ before made after, trace = before ++ made :: after ∧ sets made ∧ ∀ later ∈ after, ¬resets later

variable {sets resets : ω → Prop}

theorem not_setSince_nil : ¬SetSince sets resets [] := by
  rintro ⟨before, made, after, empty, _⟩
  simp at empty

theorem setSince_append (trace new : List ω) : SetSince sets resets (trace ++ new) ↔
    SetSince sets resets new ∨ SetSince sets resets trace ∧ ∀ made ∈ new, ¬resets made := by
  constructor
  · rintro ⟨before, made, after, split, set, kept⟩
    rcases List.append_eq_append_iff.mp split with ⟨rest, rfl, newer⟩ | ⟨rest, older, newer⟩
    · exact .inl ⟨rest, made, after, newer, set, kept⟩
    · cases rest with
      | nil => exact .inl ⟨[], made, after, newer.symm, set, kept⟩
      | cons head rest =>
          rcases List.cons.inj newer with ⟨rfl, rfl⟩
          refine .inr ⟨⟨before, made, rest, older, set, fun later member => ?_⟩, ?_⟩
          · exact kept later (List.mem_append_left _ member)
          · exact fun later member => kept later (List.mem_append_right _ member)
  · rintro (⟨before, made, after, rfl, set, kept⟩ |
      ⟨⟨before, made, after, rfl, set, kept⟩, none_new⟩)
    · exact ⟨trace ++ before, made, after, (List.append_assoc _ _ _).symm, set, kept⟩
    · refine ⟨before, made, after ++ new, by rw [List.append_assoc, List.cons_append], set, ?_⟩
      intro later member
      rcases List.mem_append.mp member with older | newer
      · exact kept later older
      · exact none_new later newer

theorem setSince_append_of_sets {new : List ω} (no_reset : ∀ made ∈ new, ¬resets made)
    (trace : List ω) : SetSince sets resets (trace ++ new) ↔
      (∃ made ∈ new, sets made) ∨ SetSince sets resets trace := by
  rw [setSince_append, and_iff_left no_reset]
  apply or_congr_left
  constructor
  · rintro ⟨before, made, after, rfl, set, _⟩
    exact ⟨made, by simp, set⟩
  · rintro ⟨made, member, set⟩
    rcases List.append_of_mem member with ⟨before, after, rfl⟩
    exact ⟨before, made, after, rfl, set, fun later newer => no_reset later (by simp [newer])⟩

theorem setSince_append_of_resets {new : List ω} (no_set : ∀ made ∈ new, ¬sets made)
    (trace : List ω) : SetSince sets resets (trace ++ new) ↔
      SetSince sets resets trace ∧ ∀ made ∈ new, ¬resets made := by
  rw [setSince_append]
  apply or_iff_right
  rintro ⟨before, made, after, rfl, set, _⟩
  exact no_set made (by simp) set

end Latches

namespace Machine

variable (M : Machine σ ι ω)

def post (t : Transition σ ι) : σ := (M.step t.pre t.input).1

def outputs (t : Transition σ ι) : List ω := (M.step t.pre t.input).2

def trace : History σ ι → List ω
  | [] => []
  | t :: past => trace past ++ M.outputs t

inductive Run : History σ ι → σ → Prop
  | start {s : σ} (initial : M.start s) : Run [] s
  | step {past : History σ ι} {s : σ} (i : ι) (run : Run past s) :
      Run (⟨s, i⟩ :: past) (M.step s i).1

variable {M}

theorem Run.induct_where {C : Transition σ ι → History σ ι → Prop}
    {I : History σ ι → σ → Prop} (base : ∀ s, M.start s → I [] s)
    (inductive_step : ∀ past s i, M.Run past s → C ⟨s, i⟩ past → I past s →
      I (⟨s, i⟩ :: past) (M.step s i).1)
    {history : History σ ι} {s : σ} (run : M.Run history s)
    (restricted : Throughout C history) : I history s := by
  induction run with
  | start initial => exact base _ initial
  | step i run ih => exact inductive_step _ _ i run restricted.1 (ih restricted.2)

theorem Run.induct {I : History σ ι → σ → Prop} (base : ∀ s, M.start s → I [] s)
    (inductive_step : ∀ past s i, M.Run past s → I past s →
      I (⟨s, i⟩ :: past) (M.step s i).1)
    {history : History σ ι} {s : σ} (run : M.Run history s) : I history s := by
  induction run with
  | start initial => exact base _ initial
  | step i run ih => exact inductive_step _ _ i run ih

theorem Run.invariant {I : σ → Prop} (base : ∀ s, M.start s → I s)
    (preserved : ∀ s i, I s → I (M.step s i).1)
    {history : History σ ι} {s : σ} (run : M.Run history s) : I s :=
  run.induct (I := fun _ s => I s) base fun _ s i _ holds => preserved s i holds

theorem Run.throughout_where {C P : Transition σ ι → History σ ι → Prop}
    (local_step : ∀ past s i, M.Run past s → Throughout C past → C ⟨s, i⟩ past →
      P ⟨s, i⟩ past)
    {history : History σ ι} {s : σ} (run : M.Run history s)
    (restricted : Throughout C history) : Throughout P history := by
  induction run with
  | start _ => trivial
  | step i run ih =>
      exact ⟨local_step _ _ i run restricted.2 restricted.1, ih restricted.2⟩

theorem Run.throughout {P : Transition σ ι → History σ ι → Prop}
    (local_step : ∀ past s i, M.Run past s → P ⟨s, i⟩ past)
    {history : History σ ι} {s : σ} (run : M.Run history s) : Throughout P history := by
  induction run with
  | start _ => trivial
  | step i run ih => exact ⟨local_step _ _ i run, ih⟩

theorem Run.latched {P : σ → Prop} (stable : ∀ s i, P s → P (M.step s i).1)
    {history : History σ ι} {s : σ} (run : M.Run history s)
    (occurred : ∃ t ∈ history, P (M.post t)) : P s := by
  induction run with
  | start _ => simp at occurred
  | @step past s i run ih =>
      obtain ⟨t, member, holds⟩ := occurred
      rcases List.mem_cons.mp member with newest | older
      · subst newest
        exact holds
      · exact stable s i (ih ⟨t, older, holds⟩)

def exec (M : Machine σ ι ω) (past : History σ ι) (s : σ) : List ι → History σ ι × σ
  | [] => (past, s)
  | i :: inputs => exec M (⟨s, i⟩ :: past) (M.step s i).1 inputs

theorem Run.exec {past : History σ ι} {s : σ} (run : M.Run past s) (inputs : List ι) :
    M.Run (M.exec past s inputs).1 (M.exec past s inputs).2 := by
  induction inputs generalizing past s with
  | nil => exact run
  | cons i inputs ih => exact ih (run.step i)

def emitted (M : Machine σ ι ω) : σ → List ι → List ω
  | _, [] => []
  | s, i :: inputs => (M.step s i).2 ++ emitted M (M.step s i).1 inputs

theorem trace_exec (past : History σ ι) (s : σ) (inputs : List ι) :
    M.trace (M.exec past s inputs).1 = M.trace past ++ M.emitted s inputs := by
  induction inputs generalizing past s with
  | nil => simp [exec, emitted]
  | cons i inputs ih =>
      rw [exec, ih, trace, emitted, List.append_assoc]
      rfl

end Machine

end Reactive
