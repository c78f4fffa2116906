import Mathlib.Data.List.Basic

/-!
# Messages of the gateway

The normalised messages of `daimon-gateway/src/gateway.rs`, without the time of their receipt, and how a poller's
cursor is kept (`AppConfigCursor` of `daimon-app/src/gw.rs`).
-/

namespace Daimon.Gateway

structure Correlation where
  thread : Option String
  replyTo : String
  deriving DecidableEq, Repr

def Correlation.sessionId (correlation : Correlation) (channel : String) : String :=
  match correlation.thread with
  | some t => "gw:" ++ channel ++ ":" ++ t
  | none => "gw:" ++ channel ++ ":" ++ correlation.replyTo

structure InboundMessage where
  channel : String
  platformHandle : String
  text : String
  correlation : Correlation
  replyToMessageId : Option String
  deriving DecidableEq, Repr

inductive GatewayError where
  | ignored (message : String)
  deriving DecidableEq, Repr

/-- What became of the statement of `set_config`. -/
inductive Saved where
  | done
  | failed
  /-- The row is written, but the answer is lost. -/
  | unanswered
  deriving DecidableEq, Repr

namespace Saved

def written : Saved → Bool
  | .done | .unanswered => true
  | .failed => false

def store (outcome : Saved) (cursor : String) (row : Option String) : Option String :=
  if outcome.written then some cursor else row

end Saved

/-- `AppConfigCursor::load`: an error of the database and an absent row are the same. -/
def loadCursor (answered : Bool) (row : Option String) : Option String := if answered then row else none

end Daimon.Gateway
