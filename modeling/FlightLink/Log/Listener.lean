/-
# Handlers that write down what they get

The plainest handlers: each writes down its messages under a number, and its chunks if it
looks at these. Some also change who gets the next message of a kind. They remember nothing.

Key definitions: `Listener`, `Listener.changes`.
-/
import FlightLink.Log.Registry

namespace FlightLink
namespace Log

/-- Handlers that write down each call under their number, and what they do then. -/
inductive Listener where
  /-- Nothing more. -/
  | recorder (number : Nat)
  /-- Unsubscribes a kind. -/
  | once (number : Nat) (kind : Kind)
  /-- Puts the recorder `successor` in its place. -/
  | relay (number : Nat) (kind : Kind) (successor : Nat)
  deriving DecidableEq, Repr

namespace Listener

def number : Listener → Nat
  | recorder n => n
  | once n _ => n
  | relay n _ _ => n

/-- The changes that it makes whenever it is called. -/
def changes : Listener → List (Change Listener)
  | recorder _ => []
  | once _ kind => [.unsubscribe kind]
  | relay _ kind successor => [.subscribe kind (recorder successor)]

instance : Reactive Listener := ⟨Unit, (), fun h _ _ memory => (h.changes, memory)⟩

end Listener

end Log
end FlightLink
