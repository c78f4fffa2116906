import Daimon.Core.Capability

/-!
# Policy engine

`daimon-guard/src/policy.rs`: rules are tried in order, the first that matches decides, and a
capability that no rule matches is denied.
-/

namespace Daimon.Guard

inductive Decision where
  | allow
  | deny
  | requireApproval
  deriving DecidableEq, Repr

structure PolicyRule where
  capability : String
  decision : Decision
  description : Option String
  deriving DecidableEq, Repr

structure PolicyVerdict where
  decision : Decision
  ruleIndex : Option Nat
  deriving DecidableEq, Repr

structure PolicyEngine where
  rules : List PolicyRule
  defaultDecision : Decision
  deriving DecidableEq, Repr

def stripSuffix (suffix text : List Char) : Option (List Char) :=
  if suffix <:+ text then some (text.take (text.length - suffix.length)) else none

/-- A rule matches a name exactly, `prefix.*` matches `prefix` and everything below it, and `*`
matches every name. -/
def globMatch (pattern value : String) : Bool :=
  if pattern = value then true
  else
    match stripSuffix ".*".toList pattern.toList with
    | some stem => decide (value.toList = stem) || decide (stem ++ ['.'] <+: value.toList)
    | none => decide (pattern = "*")

namespace PolicyEngine

def new (rules : List PolicyRule) : PolicyEngine := { rules, defaultDecision := .deny }

def evaluateFrom (capability : String) (default : Decision) : Nat → List PolicyRule → PolicyVerdict
  | _, [] => { decision := default, ruleIndex := none }
  | i, rule :: rest =>
      if globMatch rule.capability capability then { decision := rule.decision, ruleIndex := some i }
      else evaluateFrom capability default (i + 1) rest

def evaluate (engine : PolicyEngine) (capability : String) : PolicyVerdict :=
  evaluateFrom capability engine.defaultDecision 0 engine.rules

end PolicyEngine
end Daimon.Guard
