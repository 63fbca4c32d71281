import RobocupDrone.Library.Attempt
import RobocupDrone.Servo.Server

/-! The GPIO operations of one `servo_move` request, for every sequence of their outcomes. -/

namespace RobocupDrone.Servo

open Attempts

/-- The files of the kernel: whether `open` returns a descriptor, and what `write` does. -/
structure Files (World : Type) where
  openFile : String → World → Bool × World
  write : String → String → World → World

section Gpio

variable {World : Type} (files : Files World)

/-- What the operations of `gpio` share; the result of `write` is not looked at. -/
def writeFile (path text : String) (w : World) : Bool × World :=
  let (opened, w) := files.openFile path w
  if opened = false then (false, w) else (true, files.write path text w)

def openGpio (port : String) : World → Bool × World :=
  writeFile files "/sys/class/gpio/export" port

def closeGpio (port : String) : World → Bool × World :=
  writeFile files "/sys/class/gpio/unexport" port

def setGpioDirection (port direction : String) : World → Bool × World :=
  writeFile files ("/sys/class/gpio/gpio" ++ port ++ "/direction") direction

def setGpioValue (port level : String) : World → Bool × World :=
  writeFile files ("/sys/class/gpio/gpio" ++ port ++ "/value") level

def gpio : Device World
  | .openGpio port => openGpio files port
  | .setGpioDirection port direction => setGpioDirection files port direction
  | .setGpioValue port level => setGpioValue files port level
  | .closeGpio port => closeGpio files port
  | .usleep _ => fun w => (true, w)

end Gpio

section Simulation

variable {World World' : Type} (R : World → World' → Prop)

def Agree (a : Bool × World) (b : Bool × World') : Prop := a.1 = b.1 ∧ R a.2 b.2

def Simulates (dev : Device World) (dev' : Device World') : Prop :=
  ∀ op w w', R w w' → Agree R (dev op w) (dev' op w')

variable {R} {dev : Device World} {dev' : Device World'}

theorem pulses_simulates (sim : Simulates R dev dev') (port : String) (onTime offTime n : Nat)
    {w : World} {w' : World'} (related : R w w') :
    Agree R (pulses dev port onTime offTime n w) (pulses dev' port onTime offTime n w') := by
  induction n generalizing w w' with
  | zero => exact ⟨rfl, related⟩
  | succ n ih =>
      obtain ⟨same_on, on⟩ := sim (.setGpioValue port "1") w w' related
      have waited := (sim (.usleep onTime) _ _ on).2
      obtain ⟨same_off, off⟩ := sim (.setGpioValue port "0") _ _ waited
      simp only [pulses, ← same_on, ← same_off]
      split_ifs
      · exact ⟨rfl, (sim (.closeGpio port) _ _ on).2⟩
      · exact ⟨rfl, (sim (.closeGpio port) _ _ off).2⟩
      · exact ih (sim (.usleep offTime) _ _ off).2

theorem moveServo_simulates (sim : Simulates R dev dev') (port : String) (onTime offTime : Nat)
    (i : Int) {w : World} {w' : World'} (related : R w w') :
    Agree R (moveServo dev port onTime offTime i w) (moveServo dev' port onTime offTime i w') := by
  obtain ⟨same_open, opened⟩ := sim (.openGpio port) w w' related
  have waited := (sim (.usleep 500000) _ _ opened).2
  obtain ⟨same_direction, directed⟩ := sim (.setGpioDirection port "out") _ _ waited
  simp only [moveServo, ← same_open, ← same_direction]
  split_ifs
  · exact ⟨rfl, opened⟩
  · exact ⟨rfl, (sim (.closeGpio port) _ _ directed).2⟩
  · exact pulses_simulates sim port onTime offTime _ (sim (.usleep 100000) _ _ directed).2

theorem doReq_simulates (sim : Simulates R dev dev') (i servoNum : Int) (result : Bool) {w : World}
    {w' : World'} (related : R w w') :
    Agree (fun a b => a.1 = b.1 ∧ R a.2 b.2) (doReq dev i servoNum result w)
      (doReq dev' i servoNum result w') := by
  have block : ∀ port onTime offTime, Agree (fun a b => a.1 = b.1 ∧ R a.2 b.2)
      ((moveServo dev port onTime offTime i w).1,
        if (moveServo dev port onTime offTime i w).1 then true else result,
        (moveServo dev port onTime offTime i w).2)
      ((moveServo dev' port onTime offTime i w').1,
        if (moveServo dev' port onTime offTime i w').1 then true else result,
        (moveServo dev' port onTime offTime i w').2) := by
    intro port onTime offTime
    obtain ⟨same, worlds⟩ := moveServo_simulates sim port onTime offTime i related
    exact ⟨same, by rw [same], worlds⟩
  unfold doReq
  split_ifs
  · exact block buzzerA 600 19400
  · exact block buzzerB 500 19500
  · exact block buzzerA 300 19700
  · exact ⟨rfl, rfl, related⟩

end Simulation

/-- The outcomes of the GPIO operations, one after the other; pauses have none. The world is the
operations made so far. -/
def scripted (outcomes : Nat → Bool) : Device (List GpioOp)
  | .usleep _ => fun made => (true, made)
  | op => fun made => (outcomes made.length, made ++ [op])

/-- The outcomes of `open`, one after the other. The world counts the files opened so far. -/
def scriptedFiles (outcomes : Nat → Bool) : Files Nat where
  openFile _ n := (outcomes n, n + 1)
  write _ _ n := n

theorem gpio_scripted (outcomes : Nat → Bool) :
    Simulates (fun n made => n = made.length) (gpio (scriptedFiles outcomes))
      (scripted outcomes) := by
  have opens : ∀ path text n, writeFile (scriptedFiles outcomes) path text n =
      (outcomes n, n + 1) := by
    intro path text n
    cases outcome : outcomes n with
    | false => simp [writeFile, scriptedFiles, outcome]
    | true => simp [writeFile, scriptedFiles, outcome]
  have agree : ∀ path text op (made : List GpioOp),
      Agree (fun n made => n = made.length)
        (writeFile (scriptedFiles outcomes) path text made.length)
        (outcomes made.length, made ++ [op]) := by
    intro path text op made
    rw [opens]
    refine ⟨rfl, ?_⟩
    change made.length + 1 = (made ++ [op]).length
    rw [List.length_append, List.length_singleton]
  rintro op n made rfl
  cases op with
  | usleep usec => exact ⟨rfl, rfl⟩
  | openGpio port => exact agree _ _ _ made
  | setGpioDirection port direction => exact agree _ _ _ made
  | setGpioValue port level => exact agree _ _ _ made
  | closeGpio port => exact agree _ _ _ made

theorem doReq_files (outcomes : Nat → Bool) (i servoNum : Int) (result : Bool) :
    Agree (fun a b => a.1 = b.1 ∧ a.2 = b.2.length)
      (doReq (gpio (scriptedFiles outcomes)) i servoNum result 0)
      (doReq (scripted outcomes) i servoNum result []) :=
  doReq_simulates (gpio_scripted outcomes) i servoNum result rfl

/-- The operations of `n` pulses. -/
def train (port : String) : Nat → List GpioOp
  | 0 => []
  | n + 1 => .setGpioValue port "1" :: .setGpioValue port "0" :: train port n

def IsSetValue : GpioOp → Prop
  | .setGpioValue _ _ => True
  | _ => False

instance : DecidablePred IsSetValue := fun op => by
  cases op <;> simp only [IsSetValue] <;> infer_instance

def pin (servoNum : Int) : String := if servoNum = 2 then buzzerB else buzzerA

/-- What the operations made for a request have to be, with their outcomes and the answer. -/
structure Serves (outcomes : Nat → Bool) (port : String) (answer : Bool) (made : List GpioOp) :
    Prop where
  hundred : answer = true →
    made.filter IsSetValue = train port 100 ∧ ∀ k < made.length, outcomes k = true
  stops : ∀ k < made.length, outcomes k = false →
    answer = false ∧ ∀ op ∈ made.drop (k + 1), op = .closeGpio port
  unexported : ∀ k, made[k]? = some (.openGpio port) → outcomes k = true →
    ∃ later > k, made[later]? = some (.closeGpio port) ∧ outcomes later = true

theorem length_train (port : String) (n : Nat) : (train port n).length = 2 * n := by
  induction n with
  | zero => rfl
  | succ n ih =>
      rw [train, List.length_cons, List.length_cons, ih]
      omega

theorem isSetValue_of_mem_train {port : String} {n : Nat} {op : GpioOp}
    (member : op ∈ train port n) : IsSetValue op := by
  induction n with
  | zero => exact absurd member List.not_mem_nil
  | succ n ih =>
      rcases List.mem_cons.mp member with rfl | tail
      · trivial
      · rcases List.mem_cons.mp tail with rfl | later
        · trivial
        · exact ih later

section Outcomes

variable (outcomes : Nat → Bool)

theorem pulses_attempt (port : String) (onTime offTime n : Nat) (made : List GpioOp) :
    Attempt outcomes (.closeGpio port) made (train port n)
      (pulses (scripted outcomes) port onTime offTime n made) := by
  induction n generalizing made with
  | zero => exact .finished made
  | succ n ih =>
      refine .step (fun bad => ?_) fun on => .step (fun bad => ?_) fun off => ?_
      · simp only [pulses, scripted, bad, if_true]
      · simp only [pulses, scripted, on, bad, Bool.true_eq_false, if_false, if_true]
      · simp only [pulses, scripted, on, off, Bool.true_eq_false, if_false]
        exact ih _

/-- The operations after `openGpio`. -/
def afterOpen (port : String) (i : Int) : List GpioOp :=
  .setGpioDirection port "out" :: train port (100 - i).toNat

variable {outcomes}

theorem moveServo_attempt (port : String) (onTime offTime : Nat) (i : Int)
    (opened : outcomes 0 = true) :
    Attempt outcomes (.closeGpio port) [.openGpio port] (afterOpen port i)
      (moveServo (scripted outcomes) port onTime offTime i []) := by
  have first : [GpioOp.openGpio port].length = 1 := rfl
  refine .step (fun bad => ?_) fun directed => ?_
  · rw [first] at bad
    simp [moveServo, scripted, opened, bad]
  · rw [first] at directed
    have pulsed := pulses_attempt outcomes port onTime offTime (100 - i).toNat
      ([.openGpio port] ++ [.setGpioDirection port "out"])
    simpa [moveServo, scripted, opened, directed] using pulsed

theorem moveServo_unopened (port : String) (onTime offTime : Nat) (i : Int)
    (failed : outcomes 0 = false) :
    moveServo (scripted outcomes) port onTime offTime i [] = (false, [.openGpio port]) := by
  simp [moveServo, scripted, failed]

theorem doReq_cases (outcomes : Nat → Bool) (i : Int) {servoNum : Int} (result : Bool)
    (known : servoNum = 1 ∨ servoNum = 2 ∨ servoNum = 3) :
    ∃ made, doReq (scripted outcomes) i servoNum result [] =
        (made.1, if made.1 then true else result, made.2) ∧
      (outcomes 0 = false ∧ made = (false, [.openGpio (pin servoNum)]) ∨
        outcomes 0 = true ∧ Attempt outcomes (.closeGpio (pin servoNum))
          [.openGpio (pin servoNum)] (afterOpen (pin servoNum) i) made) := by
  have block : ∀ port onTime offTime,
      outcomes 0 = false ∧ moveServo (scripted outcomes) port onTime offTime i [] =
          (false, [.openGpio port]) ∨
        outcomes 0 = true ∧ Attempt outcomes (.closeGpio port) [.openGpio port]
          (afterOpen port i) (moveServo (scripted outcomes) port onTime offTime i []) := by
    intro port onTime offTime
    cases opened : outcomes 0 with
    | false => exact .inl ⟨rfl, moveServo_unopened _ _ _ _ opened⟩
    | true => exact .inr ⟨rfl, moveServo_attempt _ _ _ _ opened⟩
  rcases known with rfl | rfl | rfl
  · exact ⟨_, rfl, block buzzerA 600 19400⟩
  · exact ⟨_, rfl, block buzzerB 500 19500⟩
  · exact ⟨_, rfl, block buzzerA 300 19700⟩

theorem not_close_of_mem_afterOpen {port : String} {i : Int} {op : GpioOp}
    (member : op ∈ afterOpen port i) : op ≠ .closeGpio port := by
  rintro rfl
  rcases List.mem_cons.mp member with direction | pulse
  · exact absurd direction (by simp)
  · exact isSetValue_of_mem_train pulse

theorem length_afterOpen (port : String) (i : Int) :
    (afterOpen port i).length = 2 * (100 - i).toNat + 1 := by
  rw [afterOpen, List.length_cons, length_train]

theorem not_serves_succeeded {port : String} {i : Int} {answer : Bool}
    (opened : outcomes 0 = true) :
    ¬Serves outcomes port answer ([.openGpio port] ++ afterOpen port i) := by
  intro serves
  obtain ⟨later, positive, closed, -⟩ := serves.unexported 0 rfl opened
  rw [List.getElem?_append_right (Nat.succ_le_of_lt positive)] at closed
  exact not_close_of_mem_afterOpen (List.mem_of_getElem? closed) rfl

theorem serves_failed_iff {port : String} {i : Int} {j : Nat}
    (below : j < (afterOpen port i).length) (before : ∀ k < j + 1, outcomes k = true) :
    Serves outcomes port false
        ([.openGpio port] ++ (afterOpen port i).take (j + 1) ++ [.closeGpio port]) ↔
      outcomes (j + 2) = true := by
  have taken : ([GpioOp.openGpio port] ++ (afterOpen port i).take (j + 1)).length = j + 2 := by
    rw [List.length_append, List.length_singleton, List.length_take_of_le below, Nat.add_comm]
  have last : ([GpioOp.openGpio port] ++ (afterOpen port i).take (j + 1) ++
      [GpioOp.closeGpio port])[j + 2]? = some (.closeGpio port) := by
    rw [List.getElem?_append_right (Nat.le_of_eq taken), taken, Nat.sub_self,
      List.getElem?_cons_zero]
  have size : ([GpioOp.openGpio port] ++ (afterOpen port i).take (j + 1) ++
      [GpioOp.closeGpio port]).length = j + 3 := by
    rw [List.length_append, taken, List.length_singleton]
  constructor
  · intro serves
    obtain ⟨later, positive, closed, good⟩ := serves.unexported 0 rfl (before 0 (Nat.succ_pos j))
    have inside := (List.getElem?_eq_some_iff.mp closed).1
    rw [size] at inside
    -- nothing between the first and the last operation closes the pin
    by_cases earlier : later < j + 2
    · rw [List.getElem?_append_left (Nat.lt_of_lt_of_eq earlier taken.symm),
        List.getElem?_append_right (Nat.succ_le_of_lt positive)] at closed
      exact absurd rfl
        (not_close_of_mem_afterOpen (List.mem_of_mem_take (List.mem_of_getElem? closed)))
    · rwa [show j + 2 = later by omega]
  · intro good
    refine ⟨fun succeeded => absurd succeeded Bool.false_ne_true, fun k inside bad => ?_,
      fun k found _ => ?_⟩
    · have late : ¬k < j + 1 := fun earlier =>
        Bool.false_ne_true (bad.symm.trans (before k earlier))
      refine ⟨rfl, fun op member => ?_⟩
      rw [List.drop_append, List.drop_of_length_le (by omega), List.nil_append] at member
      exact List.mem_singleton.mp (List.mem_of_mem_drop member)
    · have inside := (List.getElem?_eq_some_iff.mp found).1
      rw [size] at inside
      have other : k ≠ j + 2 := by
        rintro rfl
        rw [last] at found
        exact absurd found (by simp)
      exact ⟨j + 2, by omega, last, good⟩

end Outcomes

theorem doReq_true {outcomes : Nat → Bool} {i servoNum : Int} {result : Bool}
    (known : servoNum = 1 ∨ servoNum = 2 ∨ servoNum = 3)
    (answered : (doReq (scripted outcomes) i servoNum result []).1 = true) :
    (doReq (scripted outcomes) i servoNum result []).2.2 =
        .openGpio (pin servoNum) :: afterOpen (pin servoNum) i ∧
      ∀ k < 2 * (100 - i).toNat + 2, outcomes k = true := by
  obtain ⟨made, same, ⟨-, rfl⟩ | ⟨opened, run⟩⟩ := doReq_cases outcomes i result known
  · rw [same] at answered
    exact absurd answered Bool.false_ne_true
  · rw [same] at answered ⊢
    rcases run.cases with ⟨all, rfl⟩ | ⟨j, -, -, -, rfl⟩
    · refine ⟨rfl, fun k below => ?_⟩
      rw [length_afterOpen] at all
      cases k with
      | zero => exact opened
      | succ k => exact Nat.add_comm 1 k ▸ all k (by omega)
    · exact absurd answered Bool.false_ne_true

/-- A request is served as it should be exactly when the pin cannot be opened, or when a later
operation fails and the pin can be closed after that. -/
theorem serves_iff (outcomes : Nat → Bool) (i : Int) (result : Bool) {servoNum : Int}
    (known : servoNum = 1 ∨ servoNum = 2 ∨ servoNum = 3) :
    Serves outcomes (pin servoNum) (doReq (scripted outcomes) i servoNum result []).1
        (doReq (scripted outcomes) i servoNum result []).2.2 ↔
      outcomes 0 = false ∨ ∃ k ≤ 2 * (100 - i).toNat + 1,
        (∀ j < k, outcomes j = true) ∧ outcomes k = false ∧ outcomes (k + 1) = true := by
  obtain ⟨made, same, ⟨failed, rfl⟩ | ⟨opened, run⟩⟩ := doReq_cases outcomes i result known
  · rw [same]
    refine iff_of_true ⟨fun succeeded => absurd succeeded Bool.false_ne_true, fun k inside _ => ?_,
      fun k found good => ?_⟩ (.inl failed)
    · refine ⟨rfl, fun op member => ?_⟩
      rw [List.drop_of_length_le (Nat.le_add_left 1 k)] at member
      exact absurd member List.not_mem_nil
    · have inside : k < 1 := (List.getElem?_eq_some_iff.mp found).1
      rw [Nat.lt_one_iff.mp inside] at good
      exact absurd (failed.symm.trans good) Bool.false_ne_true
  · rw [same]
    have from_one : ∀ k, (∀ j < k, outcomes (1 + j) = true) → ∀ j < k + 1, outcomes j = true := by
      intro k good j below
      cases j with
      | zero => exact opened
      | succ j => exact Nat.add_comm 1 j ▸ good j (Nat.lt_of_succ_lt_succ below)
    rcases run.cases with ⟨all, rfl⟩ | ⟨j, below, before, bad, rfl⟩
    · refine iff_of_false (not_serves_succeeded opened) ?_
      rintro (failed | ⟨k, inside, -, bad, -⟩)
      · exact Bool.false_ne_true (failed.symm.trans opened)
      · have good := from_one _ all k
        rw [length_afterOpen] at good
        exact Bool.false_ne_true (bad.symm.trans (good (by omega)))
    · have earlier := from_one j before
      have fails : outcomes (j + 1) = false := Nat.add_comm 1 j ▸ bad
      refine (serves_failed_iff below earlier).trans ⟨fun good => ?_, ?_⟩
      · rw [length_afterOpen] at below
        exact .inr ⟨j + 1, by omega, earlier, fails, good⟩
      · rintro (failed | ⟨k, -, first, here, good⟩)
        · exact absurd (failed.symm.trans opened) Bool.false_ne_true
        · have not_before : ¬k < j + 1 := fun lt =>
            Bool.false_ne_true (here.symm.trans (earlier k lt))
          have not_after : ¬j + 1 < k := fun lt =>
            Bool.false_ne_true (fails.symm.trans (first _ lt))
          rwa [show k = j + 1 by omega] at good

/-- The direction cannot be set, and the pin is closed. -/
theorem serves_undirected :
    Serves (fun k => decide (k ≠ 1)) (pin 3)
      (doReq (scripted fun k => decide (k ≠ 1)) 0 3 false []).1
      (doReq (scripted fun k => decide (k ≠ 1)) 0 3 false []).2.2 :=
  (serves_iff _ 0 false (.inr (.inr rfl))).mpr
    (.inr ⟨1, Nat.le_add_left 1 _, by decide, by decide, by decide⟩)

/-- With a counter that starts at 50 and without any failure, the pin is not closed. -/
theorem pin_left_exported :
    ¬∀ (outcomes : Nat → Bool) (i servoNum : Int) (result : Bool),
      servoNum = 1 ∨ servoNum = 2 ∨ servoNum = 3 →
        Serves outcomes (pin servoNum) (doReq (scripted outcomes) i servoNum result []).1
          (doReq (scripted outcomes) i servoNum result []).2.2 := by
  intro every
  have serves := every (fun _ => true) 50 1 false (.inl rfl)
  obtain ⟨made, same, ⟨failed, -⟩ | ⟨opened, run⟩⟩ :=
    doReq_cases (fun _ => true) 50 false (.inl rfl)
  · exact absurd failed.symm Bool.false_ne_true
  · rw [same] at serves
    rcases run.cases with ⟨-, rfl⟩ | ⟨j, -, -, bad, -⟩
    · exact not_serves_succeeded opened serves
    · exact absurd bad.symm Bool.false_ne_true

end RobocupDrone.Servo
