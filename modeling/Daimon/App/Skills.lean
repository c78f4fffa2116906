import Daimon.Driver.Connector
import Daimon.Orchestrator.CreatePlan

/-!
# Skills

`Skill::instantiate` and the substitution it calls (`daimon-app/src/skills.rs`): an operator's inputs are
validated and put into the step templates of a skill, which makes the definitions of a plan.
-/

namespace Daimon.App
open Lib Driver
open Daimon.Orchestrator (StepDef)
open Driver.Connector (Validated)

structure SkillParam where
  name : String
  cls : Option String
  deriving DecidableEq, Repr

structure SkillStep where
  capability : String
  version : String
  target : Option String
  params : Json
  dependsOn : List Nat
  deriving DecidableEq

structure Skill where
  name : String
  params : List SkillParam
  steps : List SkillStep
  deriving DecidableEq

inductive SkillError where
  | missingParam (name : String)
  | param (param : String) (source : ParamError)
  | undeclaredSlot (skill : String) (step : Nat) (param : String)
  deriving DecidableEq, Repr

def parseClass : Option String → ParamClass
  | some "cidr" => .cidr
  | some "identifier" => .identifier
  | some "int" => .int
  | _ => .safeText

def slotErrors (skill : String) (step : Nat) : SlotErrors Char SkillError where
  unterminated after := .undeclaredSlot skill step (String.ofList after)
  unresolved name := .undeclaredSlot skill step (String.ofList name)

def substitute (template skill : String) (step : Nat) (validated : Validated) : Except SkillError String :=
  (fill '{' '}' (slotErrors skill step) validated.slot template.toList).map String.ofList

def substituteJson (v : Json) (skill : String) (step : Nat) (validated : Validated) : Except SkillError Json :=
  v.mapStrings fun text => substitute text skill step validated

namespace Skill

def validateInputs (inputs : List (String × String)) : List SkillParam → Except SkillError Validated
  | [] => .ok []
  | p :: params =>
      match inputs.lookup p.name with
      | none => .error (.missingParam p.name)
      | some raw =>
          match validate raw (parseClass p.cls) with
          | .error e => .error (.param p.name e)
          | .ok () => (validateInputs inputs params).map ((p.name, raw) :: ·)

def instantiateTarget (skill : String) (i : Nat) (target : Option String) (validated : Validated) :
    Except SkillError (Option String) :=
  match target with
  | some t => (substitute t skill i validated).map some
  | none => .ok none

def instantiateStep (skill : String) (i : Nat) (step : SkillStep) (validated : Validated) :
    Except SkillError StepDef := do
  let targetRef ← instantiateTarget skill i step.target validated
  let params ← substituteJson step.params skill i validated
  return { capabilityName := step.capability, capabilityVersion := step.version, targetRef, params,
           dependsOnIndex := step.dependsOn }

def instantiate (skill : Skill) (inputs : List (String × String)) : Except SkillError (List StepDef) := do
  let validated ← validateInputs inputs skill.params
  skill.steps.zipIdx.mapM fun (step, i) => instantiateStep skill.name i step validated

end Skill
end Daimon.App
