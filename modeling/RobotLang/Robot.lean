/-
What a program needs of a robot: to do each action and to answer for each
sensor. A robot has a state of its own, which every call may change, and
it may stop the program at any call.
-/
import RobotLang.Keyword

namespace RobotLang

/-- How a robot stops a program: in the course of things, or by
breaking. -/
inductive Stop
  | interrupted (message : String)
  | crashed (message : String)
  deriving DecidableEq, Repr

/-- What the robot says as it stops. -/
def Stop.message : Stop → String
  | interrupted m => m
  | crashed m => m

/-- A robot with states of some type. -/
structure Robot (σ : Type) where
  act : Action → EStateM Stop σ Unit
  read : Sensor → EStateM Stop σ Int

-- =============================================================== calls

/-- A call that a robot has answered. -/
inductive Call
  | did (action : Action)
  | told (sensor : Sensor) (value : Int)
  deriving DecidableEq, Repr

/-- The call by which an action reaches a robot. -/
def Action.call : Action → String
  | move => "move()"
  | turnLeft => "turn_left()"
  | turnRight => "turn_right()"
  | takeFuel => "take_fuel()"
  | wait => "idle_wait()"
  | shieldOn => "set_shield(True)"
  | shieldOff => "set_shield(False)"
  | turnAround => "turn_around()"

/-- The call by which a sensor is read. -/
def Sensor.call : Sensor → String
  | fuelLeft => "get_fuel()"
  | oppLR => "get_opponent_lr()"
  | oppFB => "get_opponent_fb()"
  | numBarrels => "num_barrels()"
  | barrelLR => "get_closest_barrel_lr()"
  | barrelFB => "get_closest_barrel_fb()"
  | wallDist => "get_distance_to_wall()"

/-- A call in words, with its answer if it has one. -/
def Call.text : Call → String
  | did a => a.call
  | told s v => s.call ++ " -> " ++ toString v

end RobotLang
