import Mathlib.Tactic.Linarith
import RobocupDrone.Optimizer.CostTerms

/-! The first part of `check_collision_and_rebound`: the segments that it collects around control
points in obstacles. -/

namespace RobocupDrone.Optimizer

open Geometry

section Scan

variable (occ hit : ℕ → Bool) (size : ℕ)

/-- `in_id`: the loop from `i - 1` downwards, and zero when it finds nothing free. -/
def freeBefore : ℕ → ℕ
  | 0 => 0
  | i + 1 => if occ i then freeBefore i else i

/-- `out_id`: the loop upwards from `j`, over the remaining points. -/
def freeFrom (occ : ℕ → Bool) : ℕ → ℕ → Option ℕ
  | 0, _ => none
  | remaining + 1, j => if occ j then freeFrom occ remaining (j + 1) else some j

/-- The loop from index `i` to `iEnd`, with at least as much fuel as there are indices. `none` is
`STOP_FOR_ERROR`. -/
def collectSegments (iEnd : ℤ) : ℕ → ℕ → Option (List (ℕ × ℕ))
  | 0, _ => some []
  | fuel + 1, i =>
      if iEnd < i then some []
      else if hit i then do
        let out ← freeFrom occ (size - (i + 1)) (i + 1)
        -- `i = j + 1`, and then the increment of the loop
        let later ← collectSegments iEnd fuel (out + 2)
        some ((freeBefore occ i, out) :: later)
      else collectSegments iEnd fuel (i + 1)

end Scan

/-- The loop that avoids overlap, from the segment `previous` on. -/
def avoidOverlapFrom (previous : ℤ × ℤ) : List (ℤ × ℤ) → List (ℤ × ℤ)
  | [] => [previous]
  | segment :: rest =>
      if previous.2 ≥ segment.1 then
        let middle : ℚ := ((previous.2 + segment.1 : ℤ) : ℚ) / 2
        (previous.1, truncate (middle - 0.1)) ::
          avoidOverlapFrom (truncate (middle + 1.1), segment.2) rest
      else previous :: avoidOverlapFrom segment rest

def avoidOverlap : List (ℤ × ℤ) → List (ℤ × ℤ)
  | [] => []
  | first :: rest => avoidOverlapFrom first rest

section Check

variable {K : Type} [Field K] [LinearOrder K]

/-- What the check reads: the occupancy of the map, its resolution, and `cps_`. -/
structure CollisionInput (K : Type) where
  occupied : Vec3 K → Bool
  resolution : K
  order : ℕ
  points : List (Vec3 K)
  bounds : List (List (Bound K))

def occAt (inp : CollisionInput K) (i : ℕ) : Bool := inp.occupied (col inp.points i)

def excused (inp : CollisionInput K) (i : ℕ) : Bool :=
  (inp.bounds.getD i []).any fun bound =>
    decide ((col inp.points i - bound.basePoint).dot bound.direction < 1 * inp.resolution)

def newHit (inp : CollisionInput K) (i : ℕ) : Bool := occAt inp i && !excused inp i

def checkEnd (order size : ℕ) : ℤ :=
  let endIdx : ℤ := size - order
  endIdx - (endIdx - order).tdiv 3

/-- `segment_ids` before the searches for paths; `none` also for an order of zero, with which the
first index is negative. -/
def checkSegments (inp : CollisionInput K) : Option (List (ℕ × ℕ)) :=
  if inp.order = 0 then none
  else
    let iEnd := checkEnd inp.order inp.points.length
    collectSegments (occAt inp) (newHit inp) inp.points.length iEnd (iEnd + 1).toNat (inp.order - 1)

def ids (segments : List (ℕ × ℕ)) : List (ℤ × ℤ) :=
  segments.map fun segment => ((segment.1 : ℤ), (segment.2 : ℤ))

end Check

section Scan

variable {occ hit : ℕ → Bool} {size : ℕ} {iEnd : ℤ}

theorem freeBefore_lt {i : ℕ} (positive : 0 < i) : freeBefore occ i < i := by
  induction i with
  | zero => omega
  | succ i ih =>
      rw [freeBefore]
      split_ifs
      · cases i with
        | zero => exact Nat.zero_lt_one
        | succ i => exact (ih (Nat.succ_pos i)).trans (Nat.lt_succ_self _)
      · exact Nat.lt_succ_self i

theorem freeBefore_free (occ : ℕ → Bool) (i : ℕ) :
    occ (freeBefore occ i) = false ∨ freeBefore occ i = 0 := by
  induction i with
  | zero => exact .inr rfl
  | succ i ih =>
      rw [freeBefore]
      split_ifs with occupied
      · exact ih
      · exact .inl (by simpa using occupied)

theorem le_freeBefore {i j : ℕ} (before : j < i) (free : occ j = false) : j ≤ freeBefore occ i := by
  induction i with
  | zero => omega
  | succ i ih =>
      rw [freeBefore]
      split_ifs with occupied
      · rcases (Nat.lt_succ_iff.mp before).eq_or_lt with rfl | earlier
        · rw [free] at occupied
          contradiction
        · exact ih earlier
      · omega

theorem freeFrom_spec {remaining j out : ℕ} (found : freeFrom occ remaining j = some out) :
    j ≤ out ∧ out < j + remaining ∧ occ out = false ∧ ∀ k, j ≤ k → k < out → occ k = true := by
  induction remaining generalizing j with
  | zero => simp [freeFrom] at found
  | succ remaining ih =>
      rw [freeFrom] at found
      split_ifs at found with occupied
      · rcases ih found with ⟨low, high, free, between⟩
        refine ⟨by omega, by omega, free, ?_⟩
        intro k first last
        rcases first.eq_or_lt with rfl | later
        · exact occupied
        · exact between k later last
      · rw [Option.some.injEq] at found
        subst found
        refine ⟨le_rfl, by omega, by simpa using occupied, ?_⟩
        intro k first last
        omega

structure Around (occ hit : ℕ → Bool) (e : ℕ) (segment : ℕ × ℕ) : Prop where
  collides : hit e = true
  first : segment.1 = freeBefore occ e
  last : e < segment.2
  free : occ segment.2 = false
  between : ∀ k, e ≤ k → k < segment.2 → occ k = true

theorem Around.first_le {e c : ℕ} {segment : ℕ × ℕ} (around : Around occ hit e segment)
    (positive : 0 < c) (before : c ≤ e)
    (between : ∀ k, c ≤ k → k < e → occ k = true) : segment.1 < c := by
  rw [around.first]
  by_contra late
  rcases freeBefore_free occ e with free | zero
  · have occupied := between _ (not_lt.mp late) (freeBefore_lt (by omega))
    rw [free] at occupied
    contradiction
  · omega

/-- A collision right after the free point that ends the segment of an earlier collision, with a
free point between it and every later one. -/
structure JumpedOver (occ hit : ℕ → Bool) (start : ℕ) (iEnd : ℤ) (c : ℕ) : Prop where
  collides : hit c = true
  inside : (c : ℤ) ≤ iEnd
  gap : occ (c - 1) = false
  earlier : ∃ h, start ≤ h ∧ h + 2 ≤ c ∧ hit h = true ∧ ∀ k, h ≤ k → k + 2 ≤ c → occ k = true
  later : ∀ d, c < d → (d : ℤ) ≤ iEnd → hit d = true → ∃ k, c < k ∧ k < d ∧ occ k = false

theorem JumpedOver.mono {start start' c : ℕ} (jumped : JumpedOver occ hit start' iEnd c)
    (lower : start ≤ start') : JumpedOver occ hit start iEnd c := by
  rcases jumped.earlier with ⟨h, first, last, collides, between⟩
  exact ⟨jumped.collides, jumped.inside, jumped.gap, ⟨h, by omega, last, collides, between⟩,
    jumped.later⟩

/-- The segment of a collision in front of `out` ends right in front of the one jumped over. -/
theorem JumpedOver.next {start i h out c : ℕ} (jumped : JumpedOver occ hit start iEnd c)
    (from_i : i ≤ h) (last : h + 2 ≤ c) (between : ∀ k, h ≤ k → k + 2 ≤ c → occ k = true)
    (inner : h < out) (free : occ out = false) (run : ∀ k, i + 1 ≤ k → k < out → occ k = true) :
    out + 1 = c := by
  have reaches : out + 1 ≤ c := by
    by_contra short
    have occupied := run (c - 1) (by omega) (by omega)
    rw [jumped.gap] at occupied
    contradiction
  by_contra longer
  have occupied := between out (by omega) (by omega)
  rw [free] at occupied
  contradiction

variable (hit_occ : ∀ i, hit i = true → occ i = true)
include hit_occ

theorem mem_collectSegments {fuel i : ℕ} {segments : List (ℕ × ℕ)}
    (collected : collectSegments occ hit size iEnd fuel i = some segments) :
    ∀ segment ∈ segments, ∃ e, i ≤ e ∧ (e : ℤ) ≤ iEnd ∧ Around occ hit e segment := by
  induction fuel generalizing i segments with
  | zero =>
      rw [collectSegments, Option.some.injEq] at collected
      simp [← collected]
  | succ fuel ih =>
      rw [collectSegments] at collected
      split_ifs at collected with ended collides
      · rw [Option.some.injEq] at collected
        simp [← collected]
      · simp only [Option.bind_eq_bind, Option.bind_eq_some_iff, Option.some.injEq] at collected
        rcases collected with ⟨out, found, later, rest, same⟩
        rcases freeFrom_spec found with ⟨low, _, free, between⟩
        intro segment member
        rw [← same, List.mem_cons] at member
        rcases member with rfl | member
        · refine ⟨i, le_rfl, by omega, collides, rfl, by omega, free, ?_⟩
          intro k first last
          rcases first.eq_or_lt with rfl | after
          · exact hit_occ i collides
          · exact between k after last
        · rcases ih rest segment member with ⟨e, first, last, around⟩
          exact ⟨e, by omega, last, around⟩
      · intro segment member
        rcases ih collected segment member with ⟨e, first, last, around⟩
        exact ⟨e, by omega, last, around⟩

def Follows (a b : ℕ × ℕ) : Prop := a.2 ≤ b.1 ∧ a.2 + 3 ≤ b.2

theorem pairwise_collectSegments {fuel i : ℕ} {segments : List (ℕ × ℕ)}
    (collected : collectSegments occ hit size iEnd fuel i = some segments) :
    segments.Pairwise Follows := by
  induction fuel generalizing i segments with
  | zero =>
      rw [collectSegments, Option.some.injEq] at collected
      simp [← collected]
  | succ fuel ih =>
      rw [collectSegments] at collected
      split_ifs at collected with ended collides
      · rw [Option.some.injEq] at collected
        simp [← collected]
      · simp only [Option.bind_eq_bind, Option.bind_eq_some_iff, Option.some.injEq] at collected
        rcases collected with ⟨out, found, later, rest, same⟩
        rcases freeFrom_spec found with ⟨_, _, free, _⟩
        rw [← same, List.pairwise_cons]
        refine ⟨?_, ih rest⟩
        intro segment member
        rcases mem_collectSegments hit_occ rest segment member with ⟨e, after, _, around⟩
        have first := le_freeBefore (show out < e by omega) free
        have last := around.last
        constructor
        · rw [around.first]
          exact first
        · dsimp only
          omega
      · exact ih collected

theorem exists_collected {fuel i d : ℕ} {segments : List (ℕ × ℕ)}
    (collected : collectSegments occ hit size iEnd fuel i = some segments)
    (enough : iEnd < i + fuel) (low : i ≤ d) (high : (d : ℤ) ≤ iEnd) (collides : hit d = true) :
    ∃ segment ∈ segments, ∃ e, i ≤ e ∧ e ≤ d ∧ Around occ hit e segment := by
  induction fuel generalizing i segments with
  | zero => omega
  | succ fuel ih =>
      have whole := mem_collectSegments hit_occ collected
      rw [collectSegments, if_neg (by omega)] at collected
      split_ifs at collected with here
      · simp only [Option.bind_eq_bind, Option.bind_eq_some_iff, Option.some.injEq] at collected
        rcases collected with ⟨out, found, later, rest, same⟩
        rcases freeFrom_spec found with ⟨first, _, free, between⟩
        refine ⟨_, same ▸ List.mem_cons_self, i, le_rfl, low, here, rfl, by omega, free, ?_⟩
        intro k first last
        rcases first.eq_or_lt with rfl | after
        · exact hit_occ i here
        · exact between k after last
      · have later : i + 1 ≤ d := by
          rcases low.eq_or_lt with rfl | after
          · contradiction
          · exact after
        rcases ih collected (by push_cast; omega) later with
          ⟨segment, member, e, first, last, around⟩
        exact ⟨segment, member, e, by omega, last, around⟩

theorem covered_or_jumpedOver {fuel i c : ℕ} {segments : List (ℕ × ℕ)}
    (collected : collectSegments occ hit size iEnd fuel i = some segments)
    (enough : iEnd < i + fuel) (low : i ≤ c) (high : (c : ℤ) ≤ iEnd) (collides : hit c = true)
    (positive : 0 < i) :
    (∃ segment ∈ segments, segment.1 < c ∧ c < segment.2) ∨ JumpedOver occ hit i iEnd c := by
  induction fuel generalizing i segments with
  | zero => omega
  | succ fuel ih =>
      rw [collectSegments, if_neg (by omega)] at collected
      split_ifs at collected with here
      · simp only [Option.bind_eq_bind, Option.bind_eq_some_iff, Option.some.injEq] at collected
        rcases collected with ⟨out, found, later, rest, same⟩
        rcases freeFrom_spec found with ⟨first, _, free, between⟩
        have occupied := hit_occ c collides
        rcases Nat.lt_trichotomy c out with inside | rfl | after
        · left
          refine ⟨(freeBefore occ i, out), same ▸ List.mem_cons_self, ?_, inside⟩
          exact (freeBefore_lt positive).trans_le low
        · rw [free] at occupied
          contradiction
        · rcases (Nat.succ_le_of_lt after).eq_or_lt with next | further
          · -- the point that the increment jumps over
            by_cases reached : ∃ d, c < d ∧ (d : ℤ) ≤ iEnd ∧ hit d = true ∧
                ∀ k, c < k → k < d → occ k = true
            · left
              rcases reached with ⟨d, beyond, bound, collides', connected⟩
              rcases exists_collected hit_occ rest (by push_cast; omega) (by omega) bound
                collides' with ⟨segment, member, e, low', high', around⟩
              refine ⟨segment, same ▸ List.mem_cons_of_mem _ member, ?_, ?_⟩
              · apply around.first_le (by omega) (by omega)
                intro k from_c to_e
                rcases from_c.eq_or_lt with rfl | more
                · exact occupied
                · exact connected k more (by omega)
              · have last := around.last
                omega
            · right
              refine ⟨collides, high, by rwa [← next], ⟨i, le_rfl, by omega, here, ?_⟩, ?_⟩
              · intro k from_i to_c
                rcases from_i.eq_or_lt with rfl | more
                · exact hit_occ i here
                · exact between k more (by omega)
              · intro d beyond bound collides'
                by_contra none_free
                push Not at none_free
                apply reached
                refine ⟨d, beyond, bound, collides', ?_⟩
                intro k from_c to_d
                simpa using none_free k from_c to_d
          · rcases ih rest (by push_cast; omega) (by omega) (by omega) with covered | jumped
            · rcases covered with ⟨segment, member, around⟩
              exact .inl ⟨segment, same ▸ List.mem_cons_of_mem _ member, around⟩
            · exact .inr (jumped.mono (by omega))
      · have later : i + 1 ≤ c := by
          rcases low.eq_or_lt with rfl | after
          · contradiction
          · exact after
        rcases ih collected (by push_cast; omega) later (by omega) with covered | jumped
        · exact .inl covered
        · exact .inr (jumped.mono (by omega))

theorem lt_first_of_free {fuel i d : ℕ} {segments : List (ℕ × ℕ)}
    (collected : collectSegments occ hit size iEnd fuel i = some segments)
    (free : ∀ e, i ≤ e → (e : ℤ) ≤ iEnd → hit e = true → ∃ k, d < k ∧ k < e ∧ occ k = false) :
    ∀ segment ∈ segments, d < segment.1 := by
  intro segment member
  rcases mem_collectSegments hit_occ collected segment member with ⟨e, low, high, around⟩
  rcases free e low high around.collides with ⟨k, from_d, to_e, free_here⟩
  rw [around.first]
  exact from_d.trans_le (le_freeBefore to_e free_here)

/-- Behind `out` the point is jumped over again, or the collision right behind `out` was jumped over
itself, and a free point follows it. -/
theorem JumpedOver.again_or_alone {start h out c : ℕ} (jumped : JumpedOver occ hit start iEnd c)
    (collides : hit h = true) (last : h + 2 ≤ c)
    (between : ∀ k, h ≤ k → k + 2 ≤ c → occ k = true) (outer : out < h) :
    JumpedOver occ hit (out + 2) iEnd c ∨
      h = out + 1 ∧ ∀ e, out + 2 ≤ e → hit e = true → ∃ k, h < k ∧ k < e ∧ occ k = false := by
  by_cases another : ∃ h', out + 2 ≤ h' ∧ h ≤ h' ∧ h' + 2 ≤ c ∧ hit h' = true
  · left
    rcases another with ⟨h', from_out, from_h, to_c, collides'⟩
    exact ⟨jumped.collides, jumped.inside, jumped.gap, ⟨h', from_out, to_c, collides',
      fun k low' high' => between k (by omega) high'⟩, jumped.later⟩
  · right
    push Not at another
    have next : h = out + 1 := by
      by_contra further
      exact another h (by omega) le_rfl last collides
    refine ⟨next, ?_⟩
    intro e from_out collides'
    have reaches : c ≤ e := by
      by_contra short
      by_cases at_gap : e = c - 1
      · have occupied := hit_occ e collides'
        rw [at_gap, jumped.gap] at occupied
        contradiction
      · exact another e from_out (by omega) (by omega) collides'
    exact ⟨c - 1, by omega, by omega, jumped.gap⟩

theorem exists_uncovered {fuel i c : ℕ} {segments : List (ℕ × ℕ)}
    (collected : collectSegments occ hit size iEnd fuel i = some segments)
    (enough : iEnd < i + fuel) (jumped : JumpedOver occ hit i iEnd c) :
    ∃ d, i ≤ d ∧ (d : ℤ) ≤ iEnd ∧ hit d = true ∧
      ∀ segment ∈ segments, d < segment.1 ∨ segment.2 < d := by
  induction fuel generalizing i c segments with
  | zero =>
      rcases jumped.earlier with ⟨h, first, last, _, _⟩
      have inside := jumped.inside
      omega
  | succ fuel ih =>
      rcases jumped.earlier with ⟨h, first, last, collides, between⟩
      have inside := jumped.inside
      rw [collectSegments, if_neg (by omega)] at collected
      split_ifs at collected with here
      · simp only [Option.bind_eq_bind, Option.bind_eq_some_iff, Option.some.injEq] at collected
        rcases collected with ⟨out, found, later, rest, rfl⟩
        rcases freeFrom_spec found with ⟨low, _, free, run⟩
        rcases Nat.lt_trichotomy h out with inner | rfl | outer
        · have ends := jumped.next first last between inner free run
          refine ⟨c, by omega, inside, jumped.collides, List.forall_mem_cons.mpr ⟨.inr ?_, ?_⟩⟩
          · dsimp only
            omega
          · have apart := lt_first_of_free hit_occ rest fun e from_out to_end collides' =>
              jumped.later e (by omega) to_end collides'
            exact fun segment member => .inl (apart segment member)
        · have occupied := hit_occ h collides
          rw [free] at occupied
          contradiction
        · rcases jumped.again_or_alone hit_occ collides last between outer with still | alone
          · rcases ih rest (by push_cast; omega) still with ⟨d, low', high', collides', apart⟩
            refine ⟨d, by omega, high', collides', List.forall_mem_cons.mpr ⟨.inr ?_, apart⟩⟩
            dsimp only
            omega
          · have apart := lt_first_of_free hit_occ rest fun e from_out _ collides' =>
              alone.2 e from_out collides'
            refine ⟨h, first, by omega, collides, List.forall_mem_cons.mpr ⟨.inr outer, ?_⟩⟩
            exact fun segment member => .inl (apart segment member)
      · have after : i + 1 ≤ h := by
          rcases first.eq_or_lt with rfl | more
          · contradiction
          · exact more
        have still : JumpedOver occ hit (i + 1) iEnd c :=
          ⟨jumped.collides, inside, jumped.gap, ⟨h, after, last, collides, between⟩, jumped.later⟩
        rcases ih collected (by push_cast; omega) still with ⟨d, low, high, collides', apart⟩
        exact ⟨d, by omega, high, collides', apart⟩

end Scan

section Overlap

theorem truncate_below {v : ℤ} (positive : 1 ≤ v) :
    truncate (((v + v : ℤ) : ℚ) / 2 - 0.1) = v - 1 := by
  have bound : (1 : ℚ) ≤ v := by exact_mod_cast positive
  rw [truncate, if_pos]
  · rw [Int.floor_eq_iff]
    push_cast
    constructor
    · linarith
    · linarith
  · push_cast
    linarith

theorem truncate_above {v : ℤ} (positive : 1 ≤ v) :
    truncate (((v + v : ℤ) : ℚ) / 2 + 1.1) = v + 1 := by
  have bound : (1 : ℚ) ≤ v := by exact_mod_cast positive
  rw [truncate, if_pos]
  · rw [Int.floor_eq_iff]
    push_cast
    constructor
    · linarith
    · linarith
  · push_cast
    linarith

def Wide (a : ℤ × ℤ) : Prop := a.1 + 2 ≤ a.2 ∧ 1 ≤ a.2

def FollowsInt (a b : ℤ × ℤ) : Prop := a.2 ≤ b.1 ∧ a.2 + 3 ≤ b.2

structure Spread (segments : List (ℤ × ℤ)) : Prop where
  wide : ∀ a ∈ segments, Wide a
  pairwise : segments.Pairwise FollowsInt

variable {previous segment : ℤ × ℤ} {rest : List (ℤ × ℤ)}

theorem Spread.head (spread : Spread (previous :: segment :: rest)) :
    Wide previous ∧ FollowsInt previous segment :=
  ⟨spread.wide previous List.mem_cons_self,
    List.rel_of_pairwise_cons spread.pairwise List.mem_cons_self⟩

theorem Spread.tail (spread : Spread (previous :: rest)) : Spread rest :=
  ⟨fun a member => spread.wide a (List.mem_cons_of_mem previous member),
    (List.pairwise_cons.mp spread.pairwise).2⟩

theorem Spread.trimmed (spread : Spread (previous :: segment :: rest)) :
    Spread ((previous.2 + 1, segment.2) :: rest) := by
  rcases spread.head with ⟨⟨_, positive⟩, _, far⟩
  have later := spread.tail
  refine ⟨?_, List.pairwise_cons.mpr ⟨(List.pairwise_cons.mp later.pairwise).1,
    later.tail.pairwise⟩⟩
  intro a member
  rcases List.mem_cons.mp member with rfl | member
  · exact ⟨by dsimp only; omega, by dsimp only; omega⟩
  · exact later.tail.wide a member

theorem avoidOverlapFrom_cons (spread : Spread (previous :: segment :: rest)) :
    avoidOverlapFrom previous (segment :: rest) = previous :: avoidOverlapFrom segment rest ∧
        previous.2 < segment.1 ∨
      avoidOverlapFrom previous (segment :: rest) = (previous.1, previous.2 - 1) ::
        avoidOverlapFrom (previous.2 + 1, segment.2) rest ∧ previous.2 = segment.1 := by
  rcases spread.head with ⟨wide, follows⟩
  rw [avoidOverlapFrom]
  split_ifs with overlap
  · right
    have same : segment.1 = previous.2 := le_antisymm overlap follows.1
    simp only [same, truncate_below wide.2, truncate_above wide.2, and_self]
  · exact .inl ⟨rfl, not_le.mp overlap⟩

theorem avoidOverlapFrom_ordered (spread : Spread (previous :: rest)) :
    (∀ a ∈ avoidOverlapFrom previous rest, previous.1 ≤ a.1 ∧ a.1 < a.2) ∧
      (avoidOverlapFrom previous rest).Pairwise fun a b => a.2 < b.1 := by
  induction rest generalizing previous with
  | nil =>
      have here := (spread.wide previous List.mem_cons_self).1
      constructor
      · intro a member
        rw [avoidOverlapFrom, List.mem_singleton] at member
        rw [member]
        omega
      · exact List.pairwise_singleton _ _
  | cons segment rest ih =>
      have here := spread.head.1.1
      rcases avoidOverlapFrom_cons spread with ⟨shape, apart⟩ | ⟨shape, same⟩
      · rcases ih spread.tail with ⟨bounds, ordered⟩
        rw [shape, List.pairwise_cons]
        refine ⟨?_, fun a member => apart.trans_le (bounds a member).1, ordered⟩
        intro a member
        rcases List.mem_cons.mp member with rfl | member
        · omega
        · have bound := bounds a member
          omega
      · rcases ih spread.trimmed with ⟨bounds, ordered⟩
        rw [shape, List.pairwise_cons]
        refine ⟨?_, ?_, ordered⟩
        · intro a member
          rcases List.mem_cons.mp member with rfl | member
          · dsimp only
            omega
          · have bound := bounds a member
            dsimp only at bound
            omega
        · intro a member
          have bound := (bounds a member).1
          dsimp only at bound ⊢
          omega

theorem avoidOverlapFrom_keeps (spread : Spread (previous :: rest)) :
    (∃ b ∈ avoidOverlapFrom previous rest, b.1 ≤ previous.1 ∧ previous.2 - 1 ≤ b.2) ∧
      ∀ a ∈ rest, ∃ b ∈ avoidOverlapFrom previous rest, b.1 ≤ a.1 + 1 ∧ a.2 - 1 ≤ b.2 := by
  induction rest generalizing previous with
  | nil =>
      refine ⟨⟨previous, by simp [avoidOverlapFrom], le_rfl, by omega⟩, ?_⟩
      intro a member
      simp at member
  | cons segment rest ih =>
      rcases avoidOverlapFrom_cons spread with ⟨shape, _⟩ | ⟨shape, same⟩
      · rcases ih spread.tail with ⟨⟨b, kept, low, high⟩, others⟩
        rw [shape]
        refine ⟨⟨previous, List.mem_cons_self, le_rfl, by omega⟩, ?_⟩
        intro a member
        rcases List.mem_cons.mp member with rfl | member
        · exact ⟨b, List.mem_cons_of_mem _ kept, by omega, high⟩
        · rcases others a member with ⟨b, kept, bounds⟩
          exact ⟨b, List.mem_cons_of_mem _ kept, bounds⟩
      · rcases ih spread.trimmed with ⟨⟨b, kept, low, high⟩, others⟩
        rw [shape]
        refine ⟨⟨_, List.mem_cons_self, le_rfl, le_rfl⟩, ?_⟩
        intro a member
        rcases List.mem_cons.mp member with rfl | member
        · exact ⟨b, List.mem_cons_of_mem _ kept, by dsimp only at low; omega, high⟩
        · rcases others a member with ⟨b, kept, bounds⟩
          exact ⟨b, List.mem_cons_of_mem _ kept, bounds⟩

end Overlap

section Check

variable {K : Type} [Field K] [LinearOrder K] {inp : CollisionInput K} {segments : List (ℕ × ℕ)}

def Inside (segments : List (ℤ × ℤ)) (index : ℕ) : Prop :=
  ∃ segment ∈ segments, segment.1 ≤ index ∧ index ≤ segment.2

/-- Whatever searches fail, the rest is ordered after the overlap step; and before a search fails,
every new collision lies inside a segment, before and after the overlap step. -/
structure SegmentsComplete (inp : CollisionInput K) (segments : List (ℕ × ℕ)) : Prop where
  proper : ∀ kept, List.Sublist kept segments →
    ∀ segment ∈ avoidOverlap (ids kept), segment.1 < segment.2
  ordered : ∀ kept, List.Sublist kept segments →
    (avoidOverlap (ids kept)).Pairwise fun a b => a.2 < b.1
  covered : ∀ i : ℕ, inp.order - 1 ≤ i → (i : ℤ) ≤ checkEnd inp.order inp.points.length →
    newHit inp i = true → Inside (ids segments) i ∧ Inside (avoidOverlap (ids segments)) i

theorem newHit_occupied (i : ℕ) (collides : newHit inp i = true) : occAt inp i = true := by
  rw [newHit, Bool.and_eq_true] at collides
  exact collides.1

theorem spread_of_collected (enough : 2 ≤ inp.order)
    (collected : checkSegments inp = some segments) {kept : List (ℕ × ℕ)}
    (sublist : List.Sublist kept segments) : Spread (ids kept) := by
  rw [checkSegments, if_neg (by omega)] at collected
  constructor
  · intro a member
    rcases List.mem_map.mp member with ⟨segment, present, rfl⟩
    rcases mem_collectSegments newHit_occupied collected segment (sublist.subset present) with
      ⟨e, low, _, around⟩
    have before : freeBefore (occAt inp) e < e := freeBefore_lt (by omega)
    have after := around.last
    rw [← around.first] at before
    exact ⟨by dsimp only; omega, by dsimp only; omega⟩
  · rw [ids, List.pairwise_map]
    refine ((pairwise_collectSegments newHit_occupied collected).sublist sublist).imp ?_
    intro a b follows
    have starts := follows.1
    have ends := follows.2
    exact ⟨by dsimp only; omega, by dsimp only; omega⟩

theorem inside_avoidOverlap (spread : Spread (ids segments)) {segment : ℕ × ℕ} {i : ℕ}
    (member : segment ∈ segments) (above : segment.1 < i) (below : i < segment.2) :
    Inside (avoidOverlap (ids segments)) i := by
  have present : ((segment.1 : ℤ), (segment.2 : ℤ)) ∈ ids segments := List.mem_map_of_mem member
  cases shape : ids segments with
  | nil =>
      rw [shape] at present
      simp at present
  | cons previous rest =>
      rw [shape] at present spread
      rcases avoidOverlapFrom_keeps spread with ⟨⟨b, kept, low, high⟩, others⟩
      rcases List.mem_cons.mp present with same | present
      · rw [← same] at low high
        exact ⟨b, kept, by dsimp only at low; omega, by dsimp only at high; omega⟩
      · rcases others _ present with ⟨b, kept, low, high⟩
        exact ⟨b, kept, by dsimp only at low; omega, by dsimp only at high; omega⟩

theorem checkSegments_ordered (enough : 2 ≤ inp.order)
    (collected : checkSegments inp = some segments) {kept : List (ℕ × ℕ)}
    (sublist : List.Sublist kept segments) :
    (∀ segment ∈ avoidOverlap (ids kept), segment.1 < segment.2) ∧
      (avoidOverlap (ids kept)).Pairwise fun a b => a.2 < b.1 := by
  have spread := spread_of_collected enough collected sublist
  cases shape : ids kept with
  | nil => simp [avoidOverlap]
  | cons previous rest =>
      rw [shape] at spread
      rcases avoidOverlapFrom_ordered spread with ⟨bounds, ordered⟩
      exact ⟨fun segment member => (bounds segment member).2, ordered⟩

/-- The segments are complete exactly when the scan does not jump over a new collision. -/
theorem segments_complete_iff (inp : CollisionInput K) (segments : List (ℕ × ℕ))
    (enough : 2 ≤ inp.order) (collected : checkSegments inp = some segments) :
    SegmentsComplete inp segments ↔
      ∀ c, ¬ JumpedOver (occAt inp) (newHit inp) (inp.order - 1)
        (checkEnd inp.order inp.points.length) c := by
  have scanned := collected
  rw [checkSegments, if_neg (by omega)] at scanned
  dsimp only at scanned
  constructor
  · intro complete c jumped
    rcases exists_uncovered newHit_occupied scanned (by omega) jumped with
      ⟨d, low, high, collides, apart⟩
    rcases (complete.covered d low high collides).1 with ⟨segment, member, above, below⟩
    rcases List.mem_map.mp member with ⟨raw, present, rfl⟩
    dsimp only at above below
    rcases apart raw present with before | behind
    · omega
    · omega
  · intro none_jumped
    refine ⟨fun kept sublist => (checkSegments_ordered enough collected sublist).1,
      fun kept sublist => (checkSegments_ordered enough collected sublist).2, ?_⟩
    intro i low high collides
    rcases covered_or_jumpedOver newHit_occupied scanned (by omega) low high collides (by omega)
      with ⟨segment, member, above, below⟩ | jumped
    · have spread := spread_of_collected enough collected (List.Sublist.refl segments)
      refine ⟨⟨_, List.mem_map_of_mem member, ?_, ?_⟩,
        inside_avoidOverlap spread member above below⟩
      · dsimp only
        omega
      · dsimp only
        omega
    · exact absurd jumped (none_jumped i)

def rowCheck (free : List ℕ) : CollisionInput ℚ where
  occupied p := ! free.any fun place => decide (p.x = place)
  resolution := 1 / 10
  order := 3
  points := (List.range 8).map fun place : ℕ => ⟨place, 0, 0⟩
  bounds := []

/-- The third point is the only free one between the second and the sixth, and the fourth belongs
to the segment of the fifth. -/
theorem rowCheck_connected :
    SegmentsComplete (rowCheck [0, 1, 3, 6, 7]) [(1, 3), (3, 6)] := by
  rw [segments_complete_iff (rowCheck [0, 1, 3, 6, 7]) [(1, 3), (3, 6)] (by decide) (by decide)]
  intro c jumped
  rcases jumped.earlier with ⟨h, first, last, _⟩
  have bound : (c : ℤ) ≤ 5 := jumped.inside
  have start : 2 ≤ h := first
  obtain rfl | rfl : c = 4 ∨ c = 5 := by omega
  · rcases jumped.later 5 (by decide) (by decide) (by decide) with ⟨k, low, high, _⟩
    omega
  · exact absurd jumped.gap (by decide)

/-- The point behind the free one is in an obstacle, and the scan is past it. -/
theorem rowCheck_jumpedOver :
    ∃ segments, checkSegments (rowCheck [0, 1, 3, 5, 6, 7]) = some segments ∧
      newHit (rowCheck [0, 1, 3, 5, 6, 7]) 4 = true ∧ ¬ Inside (ids segments) 4 ∧
      ¬ SegmentsComplete (rowCheck [0, 1, 3, 5, 6, 7]) segments := by
  have collides : newHit (rowCheck [0, 1, 3, 5, 6, 7]) 4 = true := by decide
  have outside : ¬ Inside (ids [(1, 3)]) 4 := by
    rintro ⟨segment, member, _, last⟩
    rw [List.mem_singleton.mp member] at last
    norm_num at last
  refine ⟨[(1, 3)], by decide, collides, outside, ?_⟩
  intro complete
  exact outside (complete.covered 4 (by decide) (by decide) collides).1

end Check

end RobocupDrone.Optimizer
