import LogBroker.Log.Directory

/-!
# Configuration

What an operator can choose for a broker, with the values that hold if nothing is
chosen.
-/

namespace LogBroker

/-- The choices of an operator. -/
structure BrokerConfig where
  /-- where the logs are -/
  logs : LogDirectory := {}
  /-- how many connections are served at the same time; no limit if absent -/
  maxConnections : Option Nat := none
  /-- how many bytes the body of a request may have -/
  maxFrameLength : Nat := 100 * 1024 * 1024

end LogBroker
