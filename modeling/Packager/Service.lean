import Packager.Publisher.Cycle
import Packager.Publisher.Snapshot
/-!
# Service — a publisher that takes requests until it is stopped

A service passes requests to its publisher one at a time.  A shutdown request ends it, whatever its result, and every
later one is refused; a service that is closed while it runs shuts its publisher down first.
-/
namespace Packager

/-- A publisher behind a queue of requests. -/
inductive Service where
  | running (publisher : Publisher)
  | stopped

namespace Service

variable {m : Type → Type} [Monad m] {α : Type}

/-- Passes a request to the publisher of a running service. -/
def request (operation : Publisher → m (α × Publisher)) : Service → m (Except Failure α × Service)
  | running p => do
    let (a, p) ← operation p
    return (.ok a, running p)
  | stopped => return (.error .stopped, stopped)

/-- Passes on a request that can fail by itself. -/
def attempt (operation : Publisher → m (Except Failure α × Publisher)) (s : Service) :
    m (Except Failure α × Service) := do
  let (result, s) ← s.request operation
  return (result.bind id, s)

def cycle (outlet : Outlet m) (frames : List (TrackId × Frame)) (s : Service) :
    m (Except Failure CycleReport × Service) :=
  s.request (·.cycle outlet frames)

def control (outlet : Outlet m) (event : Data) (s : Service) : m (Except Failure Data × Service) :=
  s.request (·.handle outlet event)

def drainAudio (outlet : Outlet m) (s : Service) : m (Except Failure Nat × Service) :=
  s.attempt (·.drainAudio outlet)

def snapshot (s : Service) : Except Failure Data :=
  match s with
  | running p => .ok p.snapshot
  | stopped => .error .stopped

/-- Stops the service. -/
def shutdown (outlet : Outlet m) (s : Service) : m (Except Failure Unit × Service) := do
  let (result, _) ← s.attempt (·.shutdown outlet)
  return (result, stopped)

/-- Ends a service that nobody uses any more. -/
def close (outlet : Outlet m) (s : Service) : m Service := do
  let (_, s) ← s.shutdown outlet
  return s

end Service
end Packager
