import Mathlib.Data.Int.Notation

/-! The `servo_move` service. The GPIO files of the kernel are an arbitrary world that
answers each operation. -/

namespace RobocupDrone.Servo

inductive GpioOp
  | openGpio (port : String)
  | setGpioDirection (port direction : String)
  | setGpioValue (port level : String)
  | closeGpio (port : String)
  | usleep (usec : Nat)
  deriving DecidableEq, Repr

abbrev Device (World : Type) := GpioOp → World → Bool × World

def buzzerA : String := "267"

def buzzerB : String := "419"

variable {World : Type}

/-- `n` more rounds of the loop, each one pulse of `onTime` microseconds. -/
def pulses (dev : Device World) (port : String) (onTime offTime : Nat) :
    Nat → World → Bool × World
  | 0, w => (true, w)
  | n + 1, w =>
      let (on, w) := dev (.setGpioValue port "1") w
      if on = false then (false, (dev (.closeGpio port) w).2)
      else
        let (off, w) := dev (.setGpioValue port "0") (dev (.usleep onTime) w).2
        if off = false then (false, (dev (.closeGpio port) w).2)
        else pulses dev port onTime offTime n (dev (.usleep offTime) w).2

/-- The block that `doReq` runs for one servo number. The loop `while(i<100)` starts from
the uninitialised `i`. -/
def moveServo (dev : Device World) (port : String) (onTime offTime : Nat) (i : Int)
    (w : World) : Bool × World :=
  let (opened, w) := dev (.openGpio port) w
  if opened = false then (false, w)
  else
    let (directed, w) := dev (.setGpioDirection port "out") (dev (.usleep 500000) w).2
    if directed = false then (false, (dev (.closeGpio port) w).2)
    else pulses dev port onTime offTime (100 - i).toNat (dev (.usleep 100000) w).2

def moveServo1 (dev : Device World) : Int → World → Bool × World :=
  moveServo dev buzzerA 600 19400

def moveServo2 (dev : Device World) : Int → World → Bool × World :=
  moveServo dev buzzerB 500 19500

def moveServo3 (dev : Device World) : Int → World → Bool × World :=
  moveServo dev buzzerA 300 19700

/-- What `doReq` returns, the `result` of its response and the world afterwards. A block
that fails leaves the response as it was. -/
def doReq (dev : Device World) (i servoNum : Int) (result : Bool) (w : World) :
    Bool × Bool × World :=
  let answer (outcome : Bool × World) : Bool × Bool × World :=
    (outcome.1, if outcome.1 then true else result, outcome.2)
  if servoNum = 1 then answer (moveServo1 dev i w)
  else if servoNum = 2 then answer (moveServo2 dev i w)
  else if servoNum = 3 then answer (moveServo3 dev i w)
  else (false, false, w)

theorem doReq_range {dev : Device World} {i servoNum : Int} {result : Bool} {w : World}
    (succeeded : (doReq dev i servoNum result w).1 = true) : 1 ≤ servoNum ∧ servoNum ≤ 3 := by
  by_cases first : servoNum = 1
  · omega
  by_cases second : servoNum = 2
  · omega
  by_cases third : servoNum = 3
  · omega
  simp [doReq, first, second, third] at succeeded

def healthy : Device (List GpioOp) := fun op log => (true, op :: log)

example : (doReq healthy 99 3 false []).2.2.reverse =
    [.openGpio "267", .usleep 500000, .setGpioDirection "267" "out", .usleep 100000,
      .setGpioValue "267" "1", .usleep 300, .setGpioValue "267" "0", .usleep 19700] := by
  decide

end RobocupDrone.Servo
