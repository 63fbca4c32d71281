import Mathlib.Algebra.BigOperators.Fin
import Mathlib.Algebra.Order.Group.MinMax
import Mathlib.Data.Rat.Cast.OfScientific
import RobocupDrone.Library.Loop
import RobocupDrone.Library.Vec3
import RobocupDrone.Optimizer.ReboundLoop

/-! The solver `lbfgs_optimize` with its line search. The callbacks may keep a state of their
own. -/

namespace RobocupDrone.Optimizer

variable {K σ : Type} [Field K] [LinearOrder K] {n : ℕ}

def vecncpy (x : Fin n → K) : Fin n → K := fun i => -x i

def vecadd (y x : Fin n → K) (c : K) : Fin n → K := fun i => y i + c * x i

def vecdiff (x y : Fin n → K) : Fin n → K := fun i => x i - y i

def vecscale (y : Fin n → K) (c : K) : Fin n → K := fun i => y i * c

def vecdot (x y : Fin n → K) : K := ∑ i, x i * y i

def vec2norm (sqrt : K → K) (x : Fin n → K) : K := sqrt (vecdot x x)

def vec2norminv (sqrt : K → K) (x : Fin n → K) : K := 1 / vec2norm sqrt x

structure LbfgsParameter (K : Type) where
  memSize : ℤ
  gEpsilon : K
  past : ℤ
  delta : K
  maxIterations : ℤ
  maxLinesearch : ℤ
  minStep : K
  maxStep : K
  fDecCoeff : K
  sCurvCoeff : K
  xtol : K

def defaultParam : LbfgsParameter K where
  memSize := 8
  gEpsilon := 1e-5
  past := 0
  delta := 1e-5
  maxIterations := 0
  maxLinesearch := 40
  minStep := 1e-20
  maxStep := 1e20
  fDecCoeff := 1e-4
  sCurvCoeff := 0.9
  xtol := 1.0e-16

def checkParam (n : ℕ) (param : LbfgsParameter K) : Option LbfgsResult :=
  if n = 0 then some .invalidN
  else if param.memSize ≤ 0 then some .invalidMemsize
  else if param.gEpsilon < 0 then some .invalidGepsilon
  else if param.past < 0 then some .invalidTestperiod
  else if param.delta < 0 then some .invalidDelta
  else if param.minStep < 0 then some .invalidMinstep
  else if param.maxStep < param.minStep then some .invalidMaxstep
  else if param.fDecCoeff < 0 then some .invalidFdeccoeff
  else if param.sCurvCoeff ≤ param.fDecCoeff ∨ 1 ≤ param.sCurvCoeff then some .invalidScurvcoeff
  else if param.xtol < 0 then some .invalidXtol
  else if param.maxLinesearch ≤ 0 then some .invalidMaxlinesearch
  else none

structure Progress (K : Type) (n : ℕ) where
  x : Fin n → K
  g : Fin n → K
  fx : K
  xnorm : K
  gnorm : K
  step : K

/-- `callback_data_t`; `σ` is what stands behind `instance`. -/
structure Callbacks (K σ : Type) (n : ℕ) where
  procEvaluate : σ → (Fin n → K) → (K × (Fin n → K)) × σ
  procStepbound : Option (σ → (Fin n → K) → (Fin n → K) → K)
  procProgress : Option (σ → Progress K n → Bool)

structure Trial (K : Type) where
  step : K
  f : K
  d : K

def cubicMinimizer (sqrt : K → K) (u v : Trial K) : K :=
  let d := v.step - u.step
  let theta := (u.f - v.f) * 3 / d + u.d + v.d
  let s := max (max |theta| |u.d|) |v.d|
  let a := theta / s
  let root := s * sqrt (a * a - u.d / s * (v.d / s))
  let gamm := if v.step < u.step then -root else root
  let p := gamm - u.d + theta
  let q := gamm - u.d + gamm + v.d
  u.step + p / q * d

def cubicMinimizer2 (sqrt : K → K) (u v : Trial K) (xmin xmax : K) : K :=
  let d := v.step - u.step
  let theta := (u.f - v.f) * 3 / d + u.d + v.d
  let s := max (max |theta| |u.d|) |v.d|
  let a := theta / s
  let radicand := a * a - u.d / s * (v.d / s)
  let root := if 0 < radicand then s * sqrt radicand else 0
  let gamm := if u.step < v.step then -root else root
  let p := gamm - v.d + theta
  let q := gamm - v.d + gamm + u.d
  let r := p / q
  if r < 0 ∧ gamm ≠ 0 then v.step - r * d else if a < 0 then xmax else xmin

def quardMinimizer (u v : Trial K) : K :=
  let a := v.step - u.step
  u.step + u.d / ((u.f - v.f) / a + u.d) / 2 * a

def quardMinimizer2 (u v : Trial K) : K :=
  let a := u.step - v.step
  v.step + v.d / (v.d - u.d) * a

structure Interval (K : Type) where
  best : Trial K
  other : Trial K
  step : K
  brackt : Bool

/-- `dsign`: the derivatives have opposite signs. -/
def dsign (x t : Trial K) : Bool := decide (t.d * (x.d / |x.d|) < 0)

/-- What the cases 1 to 4 select: the new step, whether the minimum is bracketed now, and
`bound`. -/
def selectTrial (sqrt : K → K) (x y t : Trial K) (tmin tmax : K) (brackt : Bool) :
    K × Bool × Bool :=
  if x.f < t.f then
    let mc := cubicMinimizer sqrt x t
    let mq := quardMinimizer x t
    (if |mc - x.step| < |mq - x.step| then mc else mc + 0.5 * (mq - mc), true, true)
  else if dsign x t then
    let mc := cubicMinimizer sqrt x t
    let mq := quardMinimizer2 x t
    (if |mc - t.step| > |mq - t.step| then mc else mq, true, false)
  else if |t.d| < |x.d| then
    let mc := cubicMinimizer2 sqrt x t tmin tmax
    let mq := quardMinimizer2 x t
    if brackt then (if |t.step - mc| < |t.step - mq| then mc else mq, brackt, true)
    else (if |t.step - mc| > |t.step - mq| then mc else mq, brackt, true)
  else if brackt then (cubicMinimizer sqrt t y, brackt, false)
  else (if x.step < t.step then tmax else tmin, brackt, false)

def shrink (x y t : Trial K) : Trial K × Trial K :=
  if x.f < t.f then (x, t) else (t, if dsign x t then x else y)

/-- `update_trial_interval`; an error leaves everything as it was. -/
def updateTrialInterval (sqrt : K → K) (x y t : Trial K) (tmin tmax : K) (brackt : Bool) :
    Except LbfgsResult (Interval K) :=
  if brackt ∧ (t.step ≤ min x.step y.step ∨ max x.step y.step ≤ t.step) then .error .outOfInterval
  else if brackt ∧ 0 ≤ x.d * (t.step - x.step) then .error .increaseGradient
  else if brackt ∧ tmax < tmin then .error .incorrectTminmax
  else
    let (selected, bracketed, bound) := selectTrial sqrt x y t tmin tmax brackt
    let (best, other) := shrink x y t
    let upper := if tmax < selected then tmax else selected
    let clipped := if upper < tmin then tmin else upper
    let limit := best.step + 0.66 * (other.step - best.step)
    let step :=
      if bracketed ∧ bound then
        if best.step < other.step then if limit < clipped then limit else clipped
        else if clipped < limit then limit else clipped
      else clipped
    .ok ⟨best, other, step, bracketed⟩

structure SearchInput (K σ : Type) (n : ℕ) where
  cd : Callbacks K σ n
  param : LbfgsParameter K
  xp : Fin n → K
  s : Fin n → K
  finit : K
  dginit : K
  stpmin : K
  stpmax : K

/-- The variables of `line_search_morethuente`: `stx`, `fx`, `dgx` are the best trial, `sty`,
`fy`, `dgy` the other one. -/
structure SearchState (K σ : Type) (n : ℕ) where
  count : ℕ
  brackt : Bool
  stage1 : Bool
  uinfo : Option LbfgsResult
  best : Trial K
  other : Trial K
  width : K
  prevWidth : K
  stp : K
  x : Fin n → K
  f : K
  g : Fin n → K
  inst : σ

/-- What a line search leaves: the number of evaluations or an error, and the variables it was
given pointers to. -/
structure SearchEnd (K σ : Type) (n : ℕ) where
  ls : Except LbfgsResult ℕ
  stp : K
  x : Fin n → K
  f : K
  g : Fin n → K
  inst : σ

namespace SearchInput

variable (inp : SearchInput K σ n)

def dgtest : K := inp.param.fDecCoeff * inp.dginit

def ftest1 (stp : K) : K := inp.finit + stp * inp.dgtest

end SearchInput

namespace SearchState

variable (w : SearchState K σ n)

def stmin : K := if w.brackt then min w.best.step w.other.step else w.best.step

def stmax : K :=
  if w.brackt then max w.best.step w.other.step else w.stp + 4 * (w.stp - w.best.step)

def Canceled (sqrt : K → K) (cd : Callbacks K σ n) : Prop :=
  ∃ asks ∈ cd.procProgress, asks w.inst
    ⟨w.x, w.g, w.best.f, vec2norm sqrt w.x, vec2norm sqrt w.g, w.stp⟩ = true

instance (sqrt : K → K) (cd : Callbacks K σ n) : Decidable (w.Canceled sqrt cd) :=
  match found : cd.procProgress with
  | none => isFalse (by simp [Canceled, found])
  | some asks =>
      decidable_of_iff (asks w.inst
        ⟨w.x, w.g, w.best.f, vec2norm sqrt w.x, vec2norm sqrt w.g, w.stp⟩ = true)
        (by simp [Canceled, found])

def Outside (stp : K) : Prop := stp ≤ w.stmin ∨ w.stmax ≤ stp

instance (stp : K) : Decidable (w.Outside stp) := inferInstanceAs (Decidable (_ ∨ _))

end SearchState

/-- `*stp` within the bounds. -/
def clippedStep (inp : SearchInput K σ n) (w : SearchState K σ n) : K :=
  let stp := if w.stp < inp.stpmin then inp.stpmin else w.stp
  if inp.stpmax < stp then inp.stpmax else stp

/-- The step that is tried: the best one so far if an unusual end is near. -/
def trialStep (inp : SearchInput K σ n) (w : SearchState K σ n) : K :=
  let stp := clippedStep inp w
  if w.brackt ∧ ((w.Outside stp ∨ inp.param.maxLinesearch ≤ w.count + 1 ∨ w.uinfo ≠ none) ∨
      w.stmax - w.stmin ≤ inp.param.xtol * w.stmax) then w.best.step
  else stp

def searchVerdict (inp : SearchInput K σ n) (w : SearchState K σ n) (stp f dg : K) :
    Option (Except LbfgsResult ℕ) :=
  let count := w.count + 1
  if w.brackt ∧ (w.Outside stp ∨ w.uinfo ≠ none) then some (.error .roundingError)
  else if stp = inp.stpmax ∧ f ≤ inp.ftest1 stp ∧ dg ≤ inp.dgtest then some (.error .maximumStep)
  else if stp = inp.stpmin ∧ (inp.ftest1 stp < f ∨ inp.dgtest ≤ dg) then
    some (.error .minimumStep)
  else if w.brackt ∧ w.stmax - w.stmin ≤ inp.param.xtol * w.stmax then
    some (.error .widthTooSmall)
  else if inp.param.maxLinesearch ≤ count then some (.error .maximumLinesearch)
  else if f ≤ inp.ftest1 stp ∧ |dg| ≤ inp.param.sCurvCoeff * -inp.dginit then some (.ok count)
  else none

def Trial.modified (t : Trial K) (dgtest : K) : Trial K :=
  ⟨t.step, t.f - t.step * dgtest, t.d - dgtest⟩

def Trial.restored (t : Trial K) (dgtest : K) : Trial K :=
  ⟨t.step, t.f + t.step * dgtest, t.d + dgtest⟩

/-- The interval for the next round: of the modified function while a sufficient decrease is still
to be found, else of the function. -/
def nextInterval (sqrt : K → K) (inp : SearchInput K σ n) (w : SearchState K σ n) (stage1 : Bool)
    (t : Trial K) : Except LbfgsResult (Interval K) :=
  if stage1 ∧ inp.ftest1 t.step < t.f ∧ t.f ≤ w.best.f then
    (updateTrialInterval sqrt (w.best.modified inp.dgtest) (w.other.modified inp.dgtest)
      (t.modified inp.dgtest) w.stmin w.stmax w.brackt).map fun next =>
        { next with
          best := next.best.restored inp.dgtest, other := next.other.restored inp.dgtest }
  else updateTrialInterval sqrt w.best w.other t w.stmin w.stmax w.brackt

def nextSearch (sqrt : K → K) (inp : SearchInput K σ n) (w : SearchState K σ n) (stp : K)
    (x : Fin n → K) (f : K) (g : Fin n → K) (inst : σ) : SearchState K σ n :=
  let dg := vecdot g inp.s
  let stage1 := w.stage1 && !decide (f ≤ inp.ftest1 stp ∧
    min inp.param.fDecCoeff inp.param.sCurvCoeff * inp.dginit ≤ dg)
  let next : Option LbfgsResult × Interval K :=
    match nextInterval sqrt inp w stage1 ⟨stp, f, dg⟩ with
    | .error code => (some code, ⟨w.best, w.other, stp, w.brackt⟩)
    | .ok interval => (none, interval)
  let i := next.2
  let distance := |i.other.step - i.best.step|
  { count := w.count + 1
    brackt := i.brackt
    stage1
    uinfo := next.1
    best := i.best
    other := i.other
    width := if i.brackt then distance else w.width
    prevWidth := if i.brackt then w.width else w.prevWidth
    stp :=
      if i.brackt ∧ 0.66 * w.prevWidth ≤ distance then
        i.best.step + 0.5 * (i.other.step - i.best.step)
      else i.step
    x, f, g, inst }

def searchRound (sqrt : K → K) (inp : SearchInput K σ n) (w : SearchState K σ n) :
    SearchState K σ n ⊕ SearchEnd K σ n :=
  if w.Canceled sqrt inp.cd then .inr ⟨.error .canceled, w.stp, w.x, w.f, w.g, w.inst⟩
  else
    let stp := trialStep inp w
    let x := vecadd inp.xp inp.s stp
    let ((f, g), inst) := inp.cd.procEvaluate w.inst x
    match searchVerdict inp w stp f (vecdot g inp.s) with
    | some ls => .inr ⟨ls, stp, x, f, g, inst⟩
    | none => .inl (nextSearch sqrt inp w stp x f g inst)

/-- `line_search_morethuente`, within `fuel` rounds; `x` and `g` are the point `xp` and the
gradient there. -/
def lineSearchMorethuente (sqrt : K → K) (cd : Callbacks K σ n) (param : LbfgsParameter K)
    (x : Fin n → K) (f : K) (g s : Fin n → K) (stp stpmin stpmax : K) (inst : σ) (fuel : ℕ) :
    Option (SearchEnd K σ n) :=
  let dginit := vecdot g s
  if stp ≤ 0 then some ⟨.error .invalidParameters, stp, x, f, g, inst⟩
  else if 0 < dginit then some ⟨.error .increaseGradient, stp, x, f, g, inst⟩
  else
    let start : Trial K := ⟨0, f, dginit⟩
    let width := stpmax - stpmin
    Loop.run (fun w (_ : Unit) => searchRound sqrt ⟨cd, param, x, s, f, dginit, stpmin, stpmax⟩ w)
      fuel (fun _ => ())
      ⟨0, false, true, none, start, start, width, 2 * width, stp, x, f, g, inst⟩

structure IterationData (K : Type) (n : ℕ) where
  alpha : K
  s : Fin n → K
  y : Fin n → K
  ys : K

/-- The variables that outlive an iteration of `lbfgs_optimize`. -/
structure LbfgsState (K σ : Type) (n : ℕ) where
  x : Fin n → K
  g : Fin n → K
  d : Fin n → K
  fx : K
  step : K
  k : ℕ
  last : ℕ
  lm : ℕ → IterationData K n
  pf : ℕ → K
  inst : σ

structure LbfgsEnd (K σ : Type) (n : ℕ) where
  ret : LbfgsResult
  x : Fin n → K
  fx : K
  inst : σ

def inwards (m : ℕ) : ℕ → ℕ → (ℕ → IterationData K n) → (Fin n → K) →
    ℕ × (ℕ → IterationData K n) × (Fin n → K)
  | 0, j, lm, d => (j, lm, d)
  | bound + 1, j, lm, d =>
      let j := (j + m - 1) % m
      let alpha := vecdot (lm j).s d / (lm j).ys
      inwards m bound j (Function.update lm j { lm j with alpha })
        (vecadd d (lm j).y (-alpha))

def outwards (m : ℕ) : ℕ → ℕ → (ℕ → IterationData K n) → (Fin n → K) → Fin n → K
  | 0, _, _, d => d
  | bound + 1, j, lm, d =>
      let beta := vecdot (lm j).y d / (lm j).ys
      outwards m bound ((j + 1) % m) lm (vecadd d (lm j).s ((lm j).alpha - beta))

def nextDirection (m bound last : ℕ) (lm : ℕ → IterationData K n) (scale : K) (g : Fin n → K) :
    (Fin n → K) × (ℕ → IterationData K n) :=
  let (j, lm, d) := inwards m bound last lm (vecncpy g)
  (outwards m bound j lm (vecscale d scale), lm)

/-- `gnorm / xnorm <= g_epsilon`, with `xnorm` at least one. -/
def Converged (sqrt : K → K) (param : LbfgsParameter K) (x g : Fin n → K) : Prop :=
  vec2norm sqrt g / max (vec2norm sqrt x) 1 ≤ param.gEpsilon

instance (sqrt : K → K) (param : LbfgsParameter K) (x g : Fin n → K) :
    Decidable (Converged sqrt param x g) :=
  inferInstanceAs (Decidable (_ ≤ _))

/-- The test against the value of `past` iterations ago. -/
def Stalled (param : LbfgsParameter K) (s : LbfgsState K σ n) (fx : K) : Prop :=
  -- with a value of zero the rate is no number below `delta`
  0 < param.past ∧ param.past ≤ s.k ∧ fx ≠ 0 ∧
    |(s.pf (s.k % param.past.toNat) - fx) / fx| < param.delta

instance (param : LbfgsParameter K) (s : LbfgsState K σ n) (fx : K) :
    Decidable (Stalled param s fx) :=
  inferInstanceAs (Decidable (_ ∧ _))

def startStep (cd : Callbacks K σ n) (param : LbfgsParameter K) (s : LbfgsState K σ n) : K × K :=
  match cd.procStepbound with
  | none => (s.step, param.maxStep)
  | some bound =>
      let stepMax := bound s.inst s.x s.d
      let stepMax := if stepMax < param.maxStep then stepMax else param.maxStep
      (if stepMax ≤ s.step then stepMax / 2 else s.step, stepMax)

def nextState (param : LbfgsParameter K) (s : LbfgsState K σ n) (e : SearchEnd K σ n) :
    LbfgsState K σ n :=
  let m := param.memSize.toNat
  let y := vecdiff e.g s.g
  let step := vecdiff e.x s.x
  let ys := vecdot y step
  let yy := vecdot y y
  let lm := Function.update s.lm s.last { s.lm s.last with s := step, y, ys }
  let bound := if m ≤ s.k then m else s.k
  let last := (s.last + 1) % m
  let (d, lm) := nextDirection m bound last lm (ys / yy) e.g
  { x := e.x, g := e.g, d, fx := e.f, step := 1, k := s.k + 1, last, lm
    pf := if 0 < param.past then Function.update s.pf (s.k % param.past.toNat) e.f else s.pf
    inst := e.inst }

/-- An iteration; the line search gets `max_linesearch` rounds. After an error the variables are
those before the search, `fx` is not. -/
def lbfgsIteration (sqrt : K → K) (cd : Callbacks K σ n) (param : LbfgsParameter K)
    (s : LbfgsState K σ n) : LbfgsState K σ n ⊕ Option (LbfgsEnd K σ n) :=
  let (step, stepMax) := startStep cd param s
  match lineSearchMorethuente sqrt cd param s.x s.fx s.g s.d step param.minStep stepMax s.inst
      param.maxLinesearch.toNat with
  | none => .inr none
  | some e =>
      match e.ls with
      | .error ret => .inr (some ⟨ret, s.x, e.f, e.inst⟩)
      | .ok _ =>
          if Converged sqrt param e.x e.g then .inr (some ⟨.convergence, e.x, e.f, e.inst⟩)
          else if Stalled param s e.f then .inr (some ⟨.stop, e.x, e.f, e.inst⟩)
          else if param.maxIterations ≠ 0 ∧ param.maxIterations < s.k + 1 then
            .inr (some ⟨.maximumIteration, e.x, e.f, e.inst⟩)
          else .inl (nextState param s e)

def initialState (sqrt : K → K) (x : Fin n → K) (fx : K) (g : Fin n → K) (inst : σ) :
    LbfgsState K σ n :=
  let d := vecncpy g
  { x, g, d, fx, step := vec2norminv sqrt d, k := 1, last := 0
    lm := fun _ => ⟨0, fun _ => 0, fun _ => 0, 0⟩
    pf := fun i => if i = 0 then fx else 0
    inst }

/-- `lbfgs_optimize`, within `fuel` iterations. With arguments that it rejects it evaluates
nothing. -/
def lbfgsOptimize (sqrt : K → K) (cd : Callbacks K σ n) (param : LbfgsParameter K)
    (x : Fin n → K) (inst : σ) (fuel : ℕ) : Except LbfgsResult (Option (LbfgsEnd K σ n)) :=
  match checkParam n param with
  | some ret => .error ret
  | none =>
      let ((fx, g), inst) := cd.procEvaluate inst x
      if Converged sqrt param x g then .ok (some ⟨.alreadyMinimized, x, fx, inst⟩)
      else
        .ok ((Loop.run (fun s (_ : Unit) => lbfgsIteration sqrt cd param s) fuel (fun _ => ())
          (initialState sqrt x fx g inst)).join)

end RobocupDrone.Optimizer
