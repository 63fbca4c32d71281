import RobocupDrone.Controller.Route

/-! The landing mission: when `LAND` is entered, what it latches, and what `do_land`
excludes. -/

namespace RobocupDrone.Controller

open Geometry Reactive

variable {cfg : Config} {s : Fsm} {e : Event} {inp : TickInput} {c : Control}
  {published : List (Vec3 ℚ)} {requested : List (Int × Bool)}

theorem Move.flight_step (move : Move cfg s e c published requested) :
    c.fsmState = s.fsmState ∨
      (s.fsmState = .init ∧ c.fsmState = .takingOff) ∨
      (s.fsmState = .takingOff ∧ c.fsmState = .hold) ∨
      (s.fsmState = .hold ∧ (c.fsmState = .tracking ∨ c.fsmState = .execMission)) ∨
      (s.fsmState = .tracking ∧ c.fsmState = .hold) ∨
      (s.fsmState = .execMission ∧ c.fsmState = .hold ∧ s.missionAction = .rise) ∨
      (s.fsmState = .execMission ∧ c.fsmState = .land ∧ s.missionAction = .dropLand) := by
  cases move with
  | tick inp move =>
      cases move with
      | connect state => exact .inr (.inl ⟨state, rfl⟩)
      | tookOff state => exact .inr (.inr (.inl ⟨state, rfl⟩))
      | missionEntry gate | landEntry gate =>
          exact .inr (.inr (.inr (.inl ⟨gate.state, .inr rfl⟩)))
      | arrive state => exact .inr (.inr (.inr (.inr (.inl ⟨state, rfl⟩))))
      | riseDone state action =>
          exact .inr (.inr (.inr (.inr (.inr (.inl ⟨state, rfl, action⟩)))))
      | landed _ leaving =>
          exact .inr (.inr (.inr (.inr (.inr (.inr ⟨leaving.1, rfl, leaving.2.1⟩)))))
      | _ => exact .inl rfl
  | command cmd state => exact .inr (.inr (.inr (.inl ⟨state, .inl rfl⟩)))
  | _ => exact .inl rfl

theorem land_stable (cfg : Config) (s : Fsm) (e : Event) (state : s.fsmState = .land) :
    ((controller cfg).step s e).1.fsmState = .land := by
  have moved := (step_move cfg s e).flight_step
  simp only [state, reduceCtorEq, false_and, or_false] at moved
  exact moved

theorem init_left (cfg : Config) (s : Fsm) (e : Event) (state : s.fsmState ≠ .init) :
    ((controller cfg).step s e).1.fsmState ≠ .init := by
  have moved := (step_move cfg s e).flight_step
  intro back
  change (step cfg s e).1.fsmState = .init at back
  simp [back, state.symm] at moved

theorem ground_left (cfg : Config) (s : Fsm) (e : Event)
    (state : s.fsmState ≠ .init ∧ s.fsmState ≠ .takingOff) :
    ((controller cfg).step s e).1.fsmState ≠ .init ∧
      ((controller cfg).step s e).1.fsmState ≠ .takingOff := by
  have moved := (step_move cfg s e).flight_step
  refine ⟨init_left cfg s e state.1, ?_⟩
  intro back
  change (step cfg s e).1.fsmState = .takingOff at back
  simp [back, state.1, state.2.symm] at moved

section Entry

variable (cfg)

/-- `LAND` is entered from `DROP_LAND` with `do_land`, after the last goal. -/
def LandsAtRouteEnd (t : Transition Fsm Event) (past : History Fsm Event) : Prop :=
  t.pre.fsmState ≠ .land → ((controller cfg).post t).fsmState = .land →
    t.pre.fsmState = .execMission ∧ t.pre.missionAction = .dropLand ∧ t.pre.doLand = true ∧
      (t.pre.targetId : Int) = cfg.targetPointNum ∧
      goals ((controller cfg).trace past) =
        (List.range cfg.targetPointNum.toNat).map cfg.targetPoints

def PhasesFinal (t : Transition Fsm Event) (past : History Fsm Event) : Prop :=
  ((∃ u ∈ past, ((controller cfg).post u).fsmState = .land) →
    ((controller cfg).post t).fsmState = .land) ∧
  ((∃ u ∈ past, u.pre.fsmState = .init ∧ ((controller cfg).post u).fsmState ≠ .init) →
    ((controller cfg).post t).fsmState ≠ .init) ∧
  ((∃ u ∈ past, u.pre.fsmState = .takingOff ∧
      ((controller cfg).post u).fsmState ≠ .takingOff) →
    ((controller cfg).post t).fsmState ≠ .takingOff)

end Entry

theorem lands_at_route_end {past : History Fsm Event} {s : Fsm}
    (run : (controller cfg).Run past s) (e : Event) : LandsAtRouteEnd cfg ⟨s, e⟩ past := by
  intro outside landed
  have inv := run_coherent run
  have moved := (post_move cfg s e).flight_step
  simp only [landed, outside.symm, reduceCtorEq, and_false, false_and, or_false, false_or,
    true_and] at moved
  have flag := inv.dropLand moved.2
  have last := (inv.landing flag).2
  refine ⟨moved.1, moved.2, flag, last, ?_⟩
  rw [goals_published run, ← last, Int.toNat_natCast]

theorem phases_final {past : History Fsm Event} {s : Fsm}
    (run : (controller cfg).Run past s) (e : Event) : PhasesFinal cfg ⟨s, e⟩ past := by
  refine ⟨?_, ?_, ?_⟩
  · intro landed
    exact land_stable cfg s e (run.latched (land_stable cfg) landed)
  · rintro ⟨u, member, -, left⟩
    exact init_left cfg s e (run.latched (init_left cfg) ⟨u, member, left⟩)
  · rintro ⟨u, member, state, left⟩
    have outside := ground_left cfg s e
      (run.latched (ground_left cfg) ⟨u, member, ?_, left⟩)
    · exact outside.2
    · exact init_left cfg u.pre u.input (by simp [state])

/-- `LAND` ends the route and nothing else does; it is final, and the ground states are not
seen again. -/
theorem landing_final {history : History Fsm Event} {s : Fsm}
    (run : (controller cfg).Run history s) :
    Throughout (fun t past => LandsAtRouteEnd cfg t past ∧ PhasesFinal cfg t past) history :=
  run.throughout fun _ _ e run => ⟨lands_at_route_end run e, phases_final run e⟩

def routeOnly : Config := .load { expTest2Launch with doMission := some false } none zeroConfig

/-- All five goals, then the landing mission up to its first tick in `ADJUST`. -/
def toLanding : List Event :=
  takeoff ++ fiveGates ++ [tickAt (sec 10) none false, tickAt (sec 10) none false]

def touchdown : List Event :=
  toLanding ++ [tickAt (sec 10) (some centred) false, tickAt (sec 15) (some centred) false,
    tickAt (sec 15) (some ⟨3, 0, 0, 100⟩) false]

theorem landing_final_touchdown :
    let run := script routeOnly touchdown
    run.2.fsmState = .land ∧
      Throughout (fun t past => LandsAtRouteEnd routeOnly t past ∧ PhasesFinal routeOnly t past)
        run.1 :=
  ⟨by decide +kernel, landing_final (script_run routeOnly touchdown)⟩

section Harmless

variable (cfg)

/-- Once `do_land` is set it stays, no `servo_move` request is made and the mission does not
turn to `DROP`, `PUT` or `RISE`. -/
def LandingHarmless (t : Transition Fsm Event) (_past : History Fsm Event) : Prop :=
  (t.pre.doLand = true →
    ((controller cfg).post t).doLand = true ∧
      servoMoves ((controller cfg).outputs t) = []) ∧
  (((controller cfg).post t).doLand = true →
    ((controller cfg).post t).missionAction ≠ .drop ∧
      ((controller cfg).post t).missionAction ≠ .put ∧
      ((controller cfg).post t).missionAction ≠ .rise)

/-- A tick of the landing mission leaves `ADJUST` by the detection timeout. -/
def LandingTimeout (t : Transition Fsm Event) (_past : History Fsm Event) : Prop :=
  ∃ inp, t.input = .tick inp ∧ t.pre.doLand = true ∧ TimeoutExit cfg inp t.pre

instance (t : Transition Fsm Event) (past : History Fsm Event) :
    Decidable (LandingHarmless cfg t past) :=
  inferInstanceAs (Decidable (_ ∧ _))

instance (t : Transition Fsm Event) (past : History Fsm Event) :
    Decidable (LandingTimeout cfg t past) :=
  inferInstanceAs (Decidable (∃ _, _ ∧ _))

end Harmless

def LandingAction (action : MissionAction) : Prop :=
  action = .yoloInit ∨ action = .adjust ∨ action = .dropLand

theorem Move.landing_step (move : Move cfg s e c published requested)
    (harmless : ∀ inp, e = .tick inp → s.doLand = true → ¬TimeoutExit cfg inp (openTick inp s))
    (action : s.doLand = true → LandingAction s.missionAction) :
    (s.doLand = true → c.doLand = true ∧ requested = []) ∧
      (c.doLand = true → LandingAction c.missionAction) := by
  cases move with
  | tick inp move =>
      cases move with
      | missionEntry => exact ⟨fun flag => ⟨flag, rfl⟩, fun _ => .inl rfl⟩
      | landEntry => exact ⟨fun _ => ⟨rfl, rfl⟩, fun _ => .inl rfl⟩
      | yoloInit => exact ⟨fun flag => ⟨flag, rfl⟩, fun _ => .inr (.inl rfl)⟩
      | adjustLand => exact ⟨fun flag => ⟨flag, rfl⟩, fun _ => .inr (.inr rfl)⟩
      | adjustDrop _ _ dropping =>
          exact ⟨fun flag => ⟨flag, rfl⟩, fun flag => by simp [dropping] at flag⟩
      | adjustTimeout leaving =>
          exact ⟨fun flag => ⟨flag, rfl⟩, fun flag => absurd leaving (harmless inp rfl flag)⟩
      | dropPut leaving =>
          refine ⟨fun flag => ⟨flag, rfl⟩, fun flag => ?_⟩
          have drop : s.missionAction = .drop := leaving.2.1
          simp [LandingAction, drop, show s.doLand = true from flag] at action
      | putSkip _ put | putFailed _ put | putDone _ put =>
          have put : s.missionAction = .put := put
          have flag : s.doLand = false := by simpa [LandingAction, put] using action
          exact ⟨fun landing => by simp [flag] at landing, fun landing => by
            change s.doLand = true at landing
            simp [flag] at landing⟩
      | _ => exact ⟨fun flag => ⟨flag, rfl⟩, action⟩
  | _ => exact ⟨fun flag => ⟨flag, rfl⟩, action⟩

theorem TickMove.timeout_drops
    (move : TickMove cfg inp s c published requested) (leaving : TimeoutExit cfg inp s) :
    c.missionAction = .drop ∧ c.doLand = s.doLand := by
  rcases move.adjust_cases leaving.1 leaving.2.1 with due | detection | timeout | staying
  · obtain ⟨response, detected, due, -⟩ := due
    exact absurd due (leaving.2.2.1 response detected).1
  · obtain ⟨response, exit, -⟩ := detection
    exact absurd leaving exit.not_timeout
  · exact timeout.2
  · exact absurd leaving staying.2.1

theorem landing_harmless_iff {history : History Fsm Event} {s : Fsm}
    (run : (controller cfg).Run history s) :
    Throughout (LandingHarmless cfg) history ↔
      Throughout (fun t past => ¬LandingTimeout cfg t past) history := by
  constructor
  · intro harmless
    apply harmless.mono
    rintro ⟨s, e⟩ past held ⟨inp, rfl, flag, leaving⟩
    have opened : TimeoutExit cfg inp (openTick inp s) := leaving
    obtain ⟨dropped, kept⟩ := (post_move cfg s (.tick inp)).of_tick.timeout_drops opened
    exact (held.2 (kept.trans flag)).1 dropped
  · intro detected
    have harmless : ∀ (s : Fsm) (e : Event) (past : History Fsm Event),
        ¬LandingTimeout cfg ⟨s, e⟩ past →
        ∀ inp, e = .tick inp → s.doLand = true → ¬TimeoutExit cfg inp (openTick inp s) := by
      intro s e past kept inp same flag leaving
      exact kept ⟨inp, same, flag, leaving⟩
    refine run.throughout_where ?_ detected
    intro past s e run before now
    -- by induction on the run, the landing mission has only seen its own actions
    have actions : s.doLand = true → LandingAction s.missionAction := by
      refine Machine.Run.induct_where (I := fun _ s =>
        s.doLand = true → LandingAction s.missionAction) ?_ ?_ run before
      · rintro _ ⟨memory, now, rfl⟩ flag
        simp [Fsm.init] at flag
      · intro past s e _ kept held
        exact ((post_move cfg s e).landing_step (harmless s e past kept) held).2
    obtain ⟨quiet, kept⟩ := (post_move cfg s e).landing_step (harmless s e past now) actions
    refine ⟨quiet, fun flag => ?_⟩
    rcases kept flag with action | action | action <;> simp [action]

/-- A landing mission without a single detection: after three timeouts it turns to `DROP`,
and with the payload still on board it calls the servo. -/
def blindLanding : List Event :=
  toLanding ++ List.replicate 183 (tickAt (sec 10) none false) ++
    [.odom ⟨0, 0, 0.3⟩, tickAt (sec 10) none false, tickAt (sec 13) none true]

theorem landing_harmless_touchdown :
    let run := script routeOnly touchdown
    Throughout (LandingHarmless routeOnly) run.1 :=
  (landing_harmless_iff (script_run routeOnly touchdown)).mpr (by decide +kernel)

theorem blind_landing_releases :
    let run := script routeOnly blindLanding
    (controller routeOnly).Run run.1 run.2 ∧
      ¬Throughout (LandingHarmless routeOnly) run.1 ∧
      ∃ t ∈ run.1, t.pre.doLand = true ∧
        servoMoves ((controller routeOnly).outputs t) = [(3, true)] :=
  ⟨script_run _ _, by decide +kernel, by decide +kernel⟩

end RobocupDrone.Controller
