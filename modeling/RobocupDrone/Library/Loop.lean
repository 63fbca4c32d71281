import Mathlib.Data.Set.Basic
import RobocupDrone.Library.Numerals

/-! Loops: those that run their body at least once and meet a new input in every iteration, and
those over a list that a round can stop. -/

namespace Loop

variable {σ ι ω α : Type*}

/-- The result within `fuel` iterations. The body goes on with a state or ends with a result. -/
def run (body : σ → ι → σ ⊕ ω) : ℕ → (ℕ → ι) → σ → Option ω
  | 0, _, _ => none
  | fuel + 1, inputs, s =>
      match body s (inputs 0) with
      | .inl next => run body fuel (fun n => inputs (n + 1)) next
      | .inr result => some result

def EndsWithin (body : σ → ι → σ ⊕ ω) (possible : Set ι) (s : σ) (bound : ℕ) : Prop :=
  ∀ inputs : ℕ → ι, (∀ n, inputs n ∈ possible) → (run body bound inputs s).isSome

variable {body : σ → ι → σ ⊕ ω} {possible : Set ι}

theorem run_induct {I : σ → Prop} {P : ω → Prop}
    (round : ∀ s i next, I s → body s i = .inl next → I next)
    (ends : ∀ s i result, I s → body s i = .inr result → P result) {fuel : ℕ} {inputs : ℕ → ι}
    {s : σ} (start : I s) {result : ω} (ended : run body fuel inputs s = some result) :
    P result := by
  induction fuel generalizing inputs s with
  | zero => simp [run] at ended
  | succ fuel ih =>
      rw [run] at ended
      cases outcome : body s (inputs 0) with
      | inr last =>
          simp only [outcome, Option.some.injEq] at ended
          rw [← ended]
          exact ends s (inputs 0) last start outcome
      | inl next =>
          simp only [outcome] at ended
          exact ih (round s (inputs 0) next start outcome) ended

/-- The state and the input of a round; from the end of the loop on, those of the last one. -/
def rounds (body : σ → ι → σ ⊕ ω) : (ℕ → ι) → σ → ℕ → σ × ι
  | inputs, s, 0 => (s, inputs 0)
  | inputs, s, n + 1 =>
      match body s (inputs 0) with
      | .inl next => rounds body (fun n => inputs (n + 1)) next n
      | .inr _ => (s, inputs 0)

/-- A loop whose rounds are rounds of another one, on what can be seen of them, ends as that one
does on what can be seen of the whole run. -/
theorem run_simulates {τ κ υ : Type*} {A : τ → κ → τ ⊕ υ} {f : σ → τ} {S : σ → ι → κ → Prop}
    {Q : ω → Prop} {P : ω → υ → Prop}
    (round : ∀ s i next, body s i = .inl next → ∃ k, S s i k ∧ A (f s) k = .inl (f next))
    (ends : ∀ s i result, body s i = .inr result → Q result →
      ∃ k r, S s i k ∧ A (f s) k = .inr r ∧ P result r)
    {fuel : ℕ} {inputs : ℕ → ι} {s : σ} {result : ω} (ended : run body fuel inputs s = some result)
    (proper : Q result) :
    ∃ (seen : ℕ → κ) (r : υ),
      (∀ n, S (rounds body inputs s n).1 (rounds body inputs s n).2 (seen n)) ∧
        run A fuel seen (f s) = some r ∧ P result r := by
  induction fuel generalizing inputs s with
  | zero => simp [run] at ended
  | succ fuel ih =>
      rw [run] at ended
      cases outcome : body s (inputs 0) with
      | inr last =>
          simp only [outcome, Option.some.injEq] at ended
          subst ended
          obtain ⟨k, r, sees, gave, related⟩ := ends s (inputs 0) last outcome proper
          refine ⟨fun _ => k, r, fun n => ?_, by rw [run, gave], related⟩
          have here : rounds body inputs s n = (s, inputs 0) := by
            cases n with
            | zero => rfl
            | succ n => rw [rounds, outcome]
          rw [here]
          exact sees
      | inl next =>
          simp only [outcome] at ended
          obtain ⟨k, sees, goes_on⟩ := round s (inputs 0) next outcome
          obtain ⟨seen, r, later, gave, related⟩ := ih ended
          let extended : ℕ → κ := fun i => i.casesOn k seen
          have first : A (f s) (extended 0) = .inl (f next) := goes_on
          refine ⟨extended, r, fun n => ?_, ?_, related⟩
          · cases n with
            | zero => exact sees
            | succ n =>
                rw [rounds, outcome]
                exact later n
          · rw [run, first]
            exact gave

theorem endsWithin_of_measure (measure : σ → ℕ)
    (falls : ∀ s i next, i ∈ possible → body s i = .inl next → measure next < measure s) {s : σ}
    {bound : ℕ} (enough : measure s < bound) : EndsWithin body possible s bound := by
  induction bound generalizing s with
  | zero => omega
  | succ bound ih =>
      intro inputs sound
      rw [run]
      cases outcome : body s (inputs 0) with
      | inr result => rfl
      | inl next =>
          have lower := falls s (inputs 0) next (sound 0) outcome
          exact ih (by omega) (fun n => inputs (n + 1)) fun n => sound (n + 1)

theorem not_endsWithin_of_trap {I : σ → Prop} {i : ι} (possible_input : i ∈ possible)
    (trapped : ∀ s, I s → ∃ next, body s i = .inl next ∧ I next) {s : σ} (start : I s)
    (bound : ℕ) : ¬EndsWithin body possible s bound := by
  have never : ∀ fuel s, I s → run body fuel (fun _ => i) s = none := by
    intro fuel
    induction fuel with
    | zero => intro _ _; rfl
    | succ fuel ih =>
        intro s inside
        rcases trapped s inside with ⟨next, goes_on, stays⟩
        rw [run, goes_on]
        exact ih next stays
  intro ends
  have result := ends (fun _ => i) fun _ => possible_input
  rw [never bound s start] at result
  contradiction

theorem foldl_iff {f : σ → α → σ} {P : σ → Prop} {C : α → Prop} {l : List α}
    (round : ∀ s, ∀ a ∈ l, (P (f s a) ↔ P s ∧ C a)) (s : σ) :
    P (l.foldl f s) ↔ P s ∧ ∀ a ∈ l, C a := by
  induction l generalizing s with
  | nil => simp
  | cons a rest ih =>
      have later : ∀ s, ∀ b ∈ rest, (P (f s b) ↔ P s ∧ C b) := fun s b member =>
        round s b (List.mem_cons_of_mem a member)
      rw [List.foldl_cons, ih later, round s a List.mem_cons_self, List.forall_mem_cons, and_assoc]

theorem foldlM_induct {f : σ → α → Option σ} {I : List α → σ → Prop} {l : List α} {s r : σ}
    (ended : l.foldlM f s = some r) (start : I [] s)
    (round : ∀ past a s next, a ∈ l → I past s → f s a = some next → I (past ++ [a]) next) :
    I l r := by
  have loop : ∀ rest past s, rest ⊆ l → I past s → rest.foldlM f s = some r →
      I (past ++ rest) r := by
    intro rest
    induction rest with
    | nil =>
        intro past s _ holds ended
        rw [List.foldlM_nil, Option.pure_def, Option.some.injEq] at ended
        rwa [List.append_nil, ← ended]
    | cons a rest ih =>
        intro past s inside holds ended
        rw [List.foldlM_cons, Option.bind_eq_bind, Option.bind_eq_some_iff] at ended
        rcases ended with ⟨next, first, later⟩
        rw [List.cons_subset] at inside
        have longer :=
          ih (past ++ [a]) next inside.2 (round past a s next inside.1 holds first) later
        rwa [List.append_assoc, List.singleton_append] at longer
  exact loop l [] s (List.Subset.refl l) start ended

theorem foldlM_total {f : σ → α → Option σ} {I : σ → Prop} {l : List α}
    (round : ∀ s, ∀ a ∈ l, I s → ∃ next, f s a = some next ∧ I next) {s : σ} (start : I s) :
    ∃ r, l.foldlM f s = some r ∧ I r := by
  induction l generalizing s with
  | nil => exact ⟨s, rfl, start⟩
  | cons a rest ih =>
      obtain ⟨next, goes_on, holds⟩ := round s a List.mem_cons_self start
      obtain ⟨r, ended, final⟩ := ih (fun s b member => round s b (List.mem_cons_of_mem a member))
        holds
      refine ⟨r, ?_, final⟩
      rw [List.foldlM_cons, Option.bind_eq_bind, goes_on, Option.bind_some, ended]

section Collecting

variable {β : Type*} (capacity : ℕ) (outcome : α → Option (Option β))

/-- A round of a loop that fills a buffer of fixed capacity. It may fail, or append nothing. -/
def collect (stored : List β) (a : α) : Option (List β) :=
  (outcome a).bind fun
    | none => some stored
    | some b => if stored.length < capacity then some (stored ++ [b]) else none

def collected (l : List α) : List β := l.filterMap fun a => (outcome a).join

variable {capacity outcome}

theorem mem_collected_iff {l : List α} {b : β} :
    b ∈ collected outcome l ↔ ∃ a ∈ l, outcome a = some (some b) := by
  simp only [collected, List.mem_filterMap, Option.join_eq_some_iff]

theorem length_collected {l : List α} {keep : α → Bool}
    (kept : ∀ a ∈ l, keep a = true ↔ ((outcome a).join).isSome) :
    (collected outcome l).length = l.countP keep := by
  rw [collected, List.length_filterMap_eq_countP]
  exact List.countP_congr fun a member => (kept a member).symm

theorem foldlM_collect_eq_some_iff {l : List α} {stored after : List β}
    (room : stored.length ≤ capacity) :
    l.foldlM (collect capacity outcome) stored = some after ↔
      (∀ a ∈ l, (outcome a).isSome) ∧
        stored.length + (collected outcome l).length ≤ capacity ∧
          after = stored ++ collected outcome l := by
  induction l generalizing stored with
  | nil =>
      rw [List.foldlM_nil, Option.pure_def, Option.some.injEq]
      simpa [collected, room] using eq_comm
  | cons a rest ih =>
      rw [List.foldlM_cons, List.forall_mem_cons, collect]
      cases first : outcome a with
      | none => simp
      | some made =>
          cases made with
          | none =>
              have same : collected outcome (a :: rest) = collected outcome rest := by
                simp [collected, first]
              rw [Option.bind_some, Option.bind_eq_bind, Option.bind_some, ih room, same,
                Option.isSome_some, and_iff_right rfl]
          | some b =>
              have longer : collected outcome (a :: rest) = b :: collected outcome rest := by
                simp [collected, first]
              rw [Option.bind_some, longer, List.length_cons, Option.isSome_some,
                and_iff_right rfl]
              dsimp only
              split_ifs with fits
              · have room_left : (stored ++ [b]).length ≤ capacity := by
                  rw [List.length_append, List.length_singleton]
                  exact fits
                rw [Option.bind_eq_bind, Option.bind_some, ih room_left, List.length_append,
                  List.length_singleton, List.append_assoc, List.singleton_append, Nat.add_assoc,
                  Nat.add_comm 1]
              · constructor
                · intro none_left
                  simp at none_left
                · rintro ⟨_, enough, _⟩
                  omega

end Collecting

section Families

variable {E : Type*} {P : (E → σ) → Prop} {l : List α} {S : E → σ}

theorem foldl_family {f : E → σ → α → σ} (start : P S)
    (round : ∀ a ∈ l, ∀ S, P S → P fun x => f x (S x) a) : P fun x => l.foldl (f x) (S x) := by
  induction l generalizing S with
  | nil => exact start
  | cons a rest ih =>
      simp only [List.foldl_cons]
      exact ih (round a List.mem_cons_self S start) fun b member =>
        round b (List.mem_cons_of_mem a member)

theorem foldlM_family {f : E → σ → α → Option σ} {x : E} (start : P S)
    (round : ∀ a ∈ l, ∀ S, P S → (f x (S x) a).isSome →
      ∃ next, (∀ y, f y (S y) a = some (next y)) ∧ P next)
    (ended : (l.foldlM (f x) (S x)).isSome) :
    ∃ result, (∀ y, l.foldlM (f y) (S y) = some (result y)) ∧ P result := by
  induction l generalizing S with
  | nil => exact ⟨S, fun _ => rfl, start⟩
  | cons a rest ih =>
      simp only [List.foldlM_cons, Option.bind_eq_bind] at ended ⊢
      have first : (f x (S x) a).isSome := by
        rw [Option.isSome_iff_exists] at ended ⊢
        rcases ended with ⟨r, ended⟩
        rcases Option.bind_eq_some_iff.mp ended with ⟨next, here, _⟩
        exact ⟨next, here⟩
      rcases round a List.mem_cons_self S start first with ⟨next, goes_on, holds⟩
      simp only [goes_on, Option.bind_some] at ended ⊢
      exact ih holds (fun b member => round b (List.mem_cons_of_mem a member)) ended

end Families

end Loop
