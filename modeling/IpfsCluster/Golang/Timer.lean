import Mathlib.Data.List.Basic

/-! # Timers with a channel

A timer is armed until it expires, which puts a tick on its channel. Since Go 1.23 the channel is
synchronous: `Stop` and `Reset` discard a tick that nobody has received, and `Stop` counts a timer with
such a tick as stopped. Before, the channel had a buffer and the tick stayed there.
-/

namespace IpfsCluster.Golang

inductive TimerChan where
  | synchronous | buffered
deriving DecidableEq, Repr

structure Timer where
  armed : Bool := false
  tick : Bool := false
deriving DecidableEq, Repr

namespace Timer

def newTimer : Timer := { armed := true }

def fire (timer : Timer) : Option Timer := if timer.armed then some { armed := false, tick := true } else none

/-- Whether the call stops the timer, and the timer afterwards. -/
def stop (timer : Timer) : TimerChan → Bool × Timer
  | .synchronous => (timer.armed || timer.tick, {})
  | .buffered => (timer.armed, { timer with armed := false })

def reset (timer : Timer) : TimerChan → Timer
  | .synchronous => { armed := true }
  | .buffered => { timer with armed := true }

def receive (timer : Timer) : Option Timer := if timer.tick then some { timer with tick := false } else none

/-- A tick is due or waiting. -/
def pending (timer : Timer) : Bool := timer.armed || timer.tick

variable {timer next : Timer} {kind : TimerChan}

theorem tick_of_fire (fired : timer.fire = some next) : next.tick = true := by
  unfold fire at fired
  split at fired
  · cases fired
    rfl
  · cases fired

theorem pending_of_tick (tick : timer.tick = true) : timer.pending = true := by
  rw [pending, tick, Bool.or_true]

theorem pending_reset (timer : Timer) (kind : TimerChan) : (timer.reset kind).pending = true := by
  cases kind <;> rfl

/-- A pending timer that `Stop` could not stop has its tick on the channel. -/
theorem tick_of_stop (pending : timer.pending = true) (expired : (timer.stop kind).1 = false) :
    (timer.stop kind).2.tick = true := by
  cases kind with
  | synchronous => cases pending.symm.trans expired
  | buffered =>
    change timer.tick = true
    rwa [Timer.pending, show timer.armed = false from expired, Bool.false_or] at pending

end Timer

end IpfsCluster.Golang
