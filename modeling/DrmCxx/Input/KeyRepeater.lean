import DrmCxx.Errc

/-!
# Key repeat

`KeyRepeater` arms a timer descriptor when a repeating key is pressed, and hands its handler one
synthesised event for each expiration that a dispatch reads. The handler may call back while the
events of one dispatch are being delivered. Times are in nanoseconds of the monotonic clock.
-/

namespace DrmCxx.Input

abbrev Ns := ℕ

/-- `KeyboardEvent`, without the symbols that the keyboard fills in. -/
structure KeyboardEvent where
  timeMs : UInt32 := 0
  key : UInt32
  pressed : Bool
  isRepeat : Bool := false
  deriving DecidableEq, Repr

/-! ### The timer descriptor -/

/-- `itimerspec`; an initial value of zero disarms. -/
structure TimerSpec where
  value : Ns := 0
  interval : Ns := 0
  deriving DecidableEq, Repr

/-- The setting, when it was made, and how many of its expirations were read. -/
structure TimerFd where
  spec : TimerSpec := {}
  setAt : Ns := 0
  taken : ℕ := 0
  deriving DecidableEq, Repr

namespace TimerFd

def settime (spec : TimerSpec) (now : Ns) : TimerFd := ⟨spec, now, 0⟩

/-- The expirations so far of the setting. -/
def expirations (t : TimerFd) (now : Ns) : ℕ :=
  if t.spec.value = 0 ∨ now < t.setAt + t.spec.value then 0
  else if t.spec.interval = 0 then 1
  else (now - (t.setAt + t.spec.value)) / t.spec.interval + 1

/-- `read`, which fails when there is nothing to report. The kernel may be late with some of the
expirations. -/
def read (t : TimerFd) (now : Ns) (late : ℕ) : Option (ℕ × TimerFd) :=
  let n := t.expirations now - t.taken - late
  if n = 0 then none else some (n, { t with taken := t.taken + n })

end TimerFd

/-! ### The repeater -/

structure RepeatConfig where
  delayMs : UInt32 := 600
  intervalMs : UInt32 := 40
  deriving DecidableEq, Repr

def nsPerMs : ℕ := 1000000

/-- `make_spec`. A delay of zero would disarm the timer. -/
def makeSpec (cfg : RepeatConfig) : TimerSpec :=
  let delay := cfg.delayMs.toNat * nsPerMs
  ⟨if delay = 0 then 1 else delay, cfg.intervalMs.toNat * nsPerMs⟩

/-- Whether there is a keyboard and a handler; no timer stands for `timer_fd_ = -1`. -/
structure KeyRepeater where
  keyboard : Bool := false
  cfg : RepeatConfig := {}
  handler : Bool := false
  timerFd : Option TimerFd := none
  heldKey : UInt32 := 0
  isHeld : Bool := false
  deriving DecidableEq, Repr

namespace KeyRepeater

/-- `create`, on a keyboard that may be null; `timer` is what `timerfd_create` says. -/
def create (keyboard : Bool) (cfg : RepeatConfig) (timer : Except Errc Unit) :
    Except Errc KeyRepeater :=
  if !keyboard then .error .invalidArgument
  else if cfg.intervalMs = 0 then .error .invalidArgument
  else match timer with
    | .error e => .error e
    | .ok () => .ok { keyboard, cfg, timerFd := some {} }

variable (r : KeyRepeater)

def arm (now : Ns) : KeyRepeater :=
  { r with timerFd := r.timerFd.map fun _ => .settime (makeSpec r.cfg) now }

def disarm (now : Ns) : KeyRepeater :=
  { r with timerFd := r.timerFd.map fun _ => .settime {} now }

/-- `on_key`; `shouldRepeat` is what the keyboard says of the key. -/
def onKey (now : Ns) (event : KeyboardEvent) (shouldRepeat : Bool) : KeyRepeater :=
  if event.isRepeat then r
  else if event.pressed then
    if !r.keyboard || !shouldRepeat then r
    else { r with heldKey := event.key, isHeld := true }.arm now
  else if r.isHeld && event.key = r.heldKey then
    { r.disarm now with isHeld := false, heldKey := 0 }
  else r

def cancel (now : Ns) : KeyRepeater :=
  { r.disarm now with isHeld := false, heldKey := 0 }

end KeyRepeater

/-! ### Sessions -/

inductive Call
  | onKey (event : KeyboardEvent) (shouldRepeat : Bool)
  | cancel
  deriving DecidableEq, Repr

def Call.apply (now : Ns) (r : KeyRepeater) : Call → KeyRepeater
  | .onKey event shouldRepeat => r.onKey now event shouldRepeat
  | .cancel => r.cancel now

/-- A call, and how long after the previous action it comes. -/
structure TimedCall where
  wait : Ns := 0
  call : Call
  deriving DecidableEq, Repr

/-- One round of the loop in `dispatch`: the time that passes before the event is delivered, and
what the handler does with it. -/
structure Reaction where
  wait : Ns := 0
  calls : List TimedCall := []
  deriving DecidableEq, Repr

inductive Action
  | call (now : Ns) (c : Call)
  | emit (now : Ns) (event : KeyboardEvent)
  deriving DecidableEq, Repr

/-- The repeater at some time, and what was done so far, oldest first. -/
structure Session where
  repeater : KeyRepeater
  clock : Ns := 0
  trace : List Action := []

namespace Session

variable (s : Session)

def call (c : TimedCall) : Session :=
  let now := s.clock + c.wait
  { repeater := c.call.apply now s.repeater
    clock := now
    trace := s.trace ++ [.call now c.call] }

/-- An event for the held key goes to the handler. -/
def emit (nowMs : UInt32) (wait : Ns) : Session :=
  { s with
    clock := s.clock + wait
    trace := s.trace ++ [.emit (s.clock + wait) ⟨nowMs, s.repeater.heldKey, true, true⟩] }

/-- The loop of `dispatch`, which stops when no key is held any more. -/
def burst (nowMs : UInt32) : ℕ → List Reaction → Session → Session
  | 0, _, s => s
  | n + 1, reactions, s =>
    if !s.repeater.isHeld then s
    else
      let reaction := reactions.headD {}
      let s := s.emit nowMs reaction.wait
      burst nowMs n reactions.tail (reaction.calls.foldl call s)

/-- `k_max_burst`. -/
def maxBurst : ℕ := 8

def monotonicMs (now : Ns) : UInt32 := UInt32.ofNat (now / nsPerMs)

/-- `dispatch`, after a wait. -/
def dispatch (wait : Ns) (late : ℕ) (reactions : List Reaction) : Session :=
  let s := { s with clock := s.clock + wait }
  match s.repeater.timerFd.bind fun t => t.read s.clock late with
  | none => s
  | some (n, t) =>
    let s := { s with repeater := { s.repeater with timerFd := some t } }
    if !s.repeater.isHeld || !s.repeater.handler || !s.repeater.keyboard then s
    else burst (monotonicMs s.clock) (min n maxBurst) reactions s

end Session

end DrmCxx.Input
