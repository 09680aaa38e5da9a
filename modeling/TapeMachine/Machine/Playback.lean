import TapeMachine.Binary64.Basic
import TapeMachine.Machine.Basic

/-!
# Playing a machine

To play a machine is to step it on a fixed beat until it halts: after every step the machine is
shown, and if it is still running a pause follows. A pause may be interrupted, which pauses the
machine. How a machine is shown and how a pause is made is up to whoever plays it; a playback only
records what was shown and how often a pause was made.

The beat is kept in seconds, as a 64-bit number. One that is too long for such a number is refused
before the machine is touched; one that is too long to be told in milliseconds fails at the first
pause.

A machine need not halt, so there is a limit on the steps; a playback that reaches it is
`unfinished`.
-/

namespace TapeMachine

/-- Why a machine cannot be played on a beat. -/
inductive BeatError where
  /-- The beat is no finite number of seconds. -/
  | endless
  /-- A pause is no finite number of milliseconds. -/
  | endlessPause
  deriving DecidableEq, Repr

/-- The reason in words. -/
def BeatError.message : BeatError → String
  | .endless => "integer division result too large for a float"
  | .endlessPause => "cannot convert float infinity to integer"

/-- How a playback ended. -/
inductive PlaybackEnd where
  /-- The machine halted, or had halted before. -/
  | halted
  /-- A pause was interrupted. -/
  | interrupted
  /-- A move was no direction. -/
  | fault (move : String)
  /-- The beat cannot be kept. -/
  | offBeat (e : BeatError)
  /-- The limit on the steps was reached. -/
  | unfinished
  deriving DecidableEq, Repr

/-- How a pause ended. -/
inductive PauseEnd where
  /-- It is over. -/
  | over
  /-- It was interrupted. -/
  | interrupted
  /-- It could not begin, since it would have no end. -/
  | endless
  deriving DecidableEq, Repr

namespace Playback

/-- The shortest beat, in milliseconds. -/
def leastInterval : Nat := 50

/-- The beat in seconds, for an interval in milliseconds. -/
def beat (interval : Int) : Binary64 := Binary64.quotient (max leastInterval interval) 1000

/-- The length of a pause in whole milliseconds, if there is one. Since the beat is kept in seconds,
very long pauses are rounded. -/
def pauseLength? (interval : Int) : Option Int := ((beat interval).scale 1000).nearestInt?

/-- The length of a pause in whole milliseconds; zero if there is none. -/
def pauseLength (interval : Int) : Int := (pauseLength? interval).getD 0

end Playback

namespace Machine

/-- Plays a running machine on for at most `limit` steps. After every step the machine is shown, and
if it is still running a pause follows. What it is to show a machine and to make a pause is up to
the caller. -/
@[specialize] def playFrom {μ : Type → Type} [Monad μ] (present : Machine → μ Unit)
    (pauseNow : μ PauseEnd) : (limit : Nat) → Machine → μ (Machine × PlaybackEnd)
  | 0, m => pure (m, .unfinished)
  | limit + 1, m =>
    match m.fault? with
    -- the step fails, so the machine is not shown again
    | some move => pure (m.step, .fault move)
    | none => do
      let next := m.step
      present next
      if next.status = .running then
        match ← pauseNow with
        | .over => playFrom present pauseNow limit next
        | .interrupted => pure (next.pause, .interrupted)
        | .endless => pure (next, .offBeat .endlessPause)
      else pure (next, .halted)

/-- Plays a machine, on a beat of so many milliseconds, until it halts or a pause is interrupted. -/
@[inline] def playOn {μ : Type → Type} [Monad μ] (present : Machine → μ Unit)
    (pauseNow : μ PauseEnd) (interval : Int) (limit : Nat) (m : Machine) :
    μ (Machine × PlaybackEnd) :=
  if !(Playback.beat interval).isFinite then pure (m, .offBeat .endless)
  else if m.status.isTerminal then pure (m, .halted)
  else playFrom present pauseNow limit m.play

end Machine

/-! ## Recorded playbacks -/

/-- What happened while a machine was played: the machine afterwards, a view of each machine that
was shown, in order, the number of pauses, and how it ended. -/
structure Playback (α : Type) where
  machine : Machine
  shown : List α
  pauses : Nat
  ending : PlaybackEnd

namespace Playback

/-- What has happened so far: the views, newest first, and the number of pauses. -/
structure Progress (α : Type) where
  seen : List α
  pauses : Nat

/-- Records the view of a machine. -/
def present {α : Type} (view : Machine → α) (m : Machine) : StateM (Progress α) Unit :=
  modify fun p => { p with seen := view m :: p.seen }

/-- Records a pause, if pauses have a length. The pause with the number `interruptAt` is
interrupted. -/
def pauseNow {α : Type} (canPause : Bool) (interruptAt : Option Nat) :
    StateM (Progress α) PauseEnd := do
  if canPause then
    modify fun p => { p with pauses := p.pauses + 1 }
    pure (if interruptAt = some (← get).pauses then .interrupted else .over)
  else pure .endless

end Playback

/-- The playback of a machine. -/
def Machine.playback {α : Type} (view : Machine → α) (m : Machine) (interval : Int)
    (interruptAt : Option Nat) (limit : Nat) : Playback α :=
  let ((machine, ending), progress) :=
    (playOn (Playback.present view)
      (Playback.pauseNow (Playback.pauseLength? interval).isSome interruptAt) interval limit m).run
      ⟨[], 0⟩
  ⟨machine, progress.seen.reverse, progress.pauses, ending⟩

end TapeMachine
