import SymbolAtlas.Failure

/-!
# Deadlines

A request may be stopped: by itself, because its time is up, or because a request around it was
stopped.  A limit of zero or less is up from the start; any other outlasts the request it is given
to, since answering takes no time here.
-/

namespace SymbolAtlas

inductive Deadline where
  | mk (limit : Option Number) (isCancelled : Bool) (around : Option Deadline)
  deriving Inhabited

namespace Deadline

def none : Deadline :=
  .mk .none false .none

def within (limit : Number) : Deadline :=
  .mk (some limit) false .none

/-- A deadline starts to count once its limit is known to be a number of seconds. -/
def start (limit : Number) (isCancelled : Bool) (around : Option Deadline) : Attempt Deadline :=
  match limit.whole?.map Binary64.ofInt with
  | some (.infinite _) => misused .tooLarge
  | _ => .ok (.mk (some limit) isCancelled around)

def limit : Deadline → Option Number
  | .mk limit _ _ => limit

def isCancelled : Deadline → Bool
  | .mk _ isCancelled _ => isCancelled

def isOver : Deadline → Bool
  | .mk limit isCancelled around =>
      isCancelled || limit.any (fun l => l.le (.whole 0)) ||
        match around with
        | some deadline => deadline.isOver
        | Option.none => false

/-- Why a request has to stop, if it has to. -/
def expiry? (d : Deadline) : Option Expiry :=
  if d.isOver then some (if d.isCancelled then .cancelled else .timeUp d.limit) else Option.none

def check (d : Deadline) : Attempt Unit :=
  match d.expiry? with
  | some cause => .error (.failure (.timeout cause))
  | Option.none => .ok ()

end Deadline
end SymbolAtlas
