import Daimon.Proof.Broker.Step

/-!
# The kill switch

The kill flag is read once, at the head of the pre-flight. A call that has read it as down can park
on an approval row and still goes on to its transport after the switch is engaged.
-/

namespace Daimon.Proof.Broker
open Daimon.Core Lib Daimon.Broker

/-- The call has read the kill flag as down and has not yet started its transport or ended. -/
def inFlight : Phase → Bool
  | .preFlight .killCheck => false
  | .preFlight _ => true
  | .inventory => true
  | .vault _ _ => true
  | .dispatch _ _ => true
  | .transport => false
  | .done _ => false
  | .panicked => false

/-- The switch is engaged only while no call is in flight. -/
def EngagesWhenQuiet (w : World) : Action → Prop
  | .engage _ => ∀ call ∈ w.calls, inFlight call.phase = false
  | _ => True

instance (w : World) : (action : Action) → Decidable (EngagesWhenQuiet w action)
  | .engage _ => inferInstanceAs (Decidable (∀ call ∈ w.calls, inFlight call.phase = false))
  | .submit _ | .advance _ _ | .decide _ _ _ | .release | .setApprovalTimeoutSecs _ | .setBus
  | .elapse _ => isTrue trivial

def QuietWhenEngaged (w : World) : Prop :=
  w.guard.kill.engaged = true → ∀ call ∈ w.calls, inFlight call.phase = false

theorem killCheck_engaged {g : Guard.Config} {s : Guard.State} {a : Guard.PreFlight}
    {answer : Guard.Answer} {r : Guard.StepResult} (engaged : s.kill.engaged = true)
    (moved : Guard.advance g s a .killCheck answer = some r) :
    r.outcome = .returned (.error (.killEngaged s.kill.reason)) := by
  cases Guard.advance_cases moved with
  | engaged => rfl
  | read disengaged => cases engaged.symm.trans disengaged
  | write disengaged => cases engaged.symm.trans disengaged

theorem stepCall_quiet {b : Config} {s : Guard.State} {i : Nat} {req : ExecRequest} {phase : Phase}
    {answer : Answer} {r : CallStep} (moved : stepCall b s i req phase answer = some r)
    (engaged : s.kill.engaged = true) (quiet : inFlight phase = false) :
    inFlight r.phase = false := by
  cases stepCall_move moved with
  | @preFlight g p a result attached advanced =>
      cases p with
      | killCheck => simp [killCheck_engaged engaged advanced, afterPreFlight, inFlight]
      | _ => simp [inFlight] at quiet
  | resolve parsed => simp [inFlight] at quiet
  | unlock => simp [inFlight] at quiet
  | start registered => rfl
  | finish outside => rfl

theorem step_quiet (b : Config) (g : Guard.Config) (w : World) (action : Action) (w' : World)
    (condition : EngagesWhenQuiet w action) (inv : QuietWhenEngaged w)
    (moved : step (b.withGuard g) w action = some w') : QuietWhenEngaged w' := by
  intro engaged call member
  rcases step_cases moved with ⟨i, answer, old, r, rfl, found, callMoved, rfl⟩ | ⟨req, rfl, rfl⟩ |
    ⟨-, calls, -, -, kill⟩
  · have before : w.guard.kill.engaged = true := by
      rw [← stepCall_kill callMoved]
      exact engaged
    rcases List.mem_or_eq_of_mem_set member with kept | rfl
    · exact inv before call kept
    · exact stepCall_quiet callMoved before (inv before old (List.mem_of_getElem? found))
  · rcases List.mem_append.mp member with kept | new
    · exact inv engaged call kept
    · rw [List.mem_singleton.mp new]
      rfl
  · rw [calls] at member
    rcases kill with same | released | ⟨reason, rfl, -⟩
    · exact inv (same ▸ engaged) call member
    · simp [released, Guard.KillState.release] at engaged
    · exact condition call member

theorem transport_starts_disengaged (b : Config) (g : Guard.Config) (actions : List Action) (w : World)
    (reached : run (step (b.withGuard g)) .new actions = some w)
    (quiet : AllSteps (step (b.withGuard g)) EngagesWhenQuiet .new actions)
    (action : Action) (i : Nat) (starts : StartsTransport (b.withGuard g) w action i) :
    w.guard.kill.engaged = false := by
  have start : QuietWhenEngaged .new := by
    intro engaged
    simp [World.new, Guard.State.new, Guard.KillState.new] at engaged
  have inv : QuietWhenEngaged w := invariant_of_allSteps (step_quiet b g) quiet start reached
  obtain ⟨call, managed, credential, found, atDispatch⟩ := startsTransport_dispatch starts
  by_contra engaged
  have idle := inv (by simpa using engaged) call (List.mem_of_getElem? found)
  simp [atDispatch, inFlight] at idle

def quietRun : List Action :=
  [.engage "drill", .submit sampleRequest, .advance 0 (.guard .go), .release] ++
    [.submit sampleRequest, .advance 1 (.guard .go), .advance 1 (.guard .go),
     .advance 1 (.guard (.inserted 1)), .advance 1 (.guard .go), .advance 1 (.guard .go),
     .decide 1 7 .approved, .advance 1 (.guard .go), .advance 1 (.managed (.ok sampleTarget)),
     .advance 1 (.credential (.ok (.sshPassword "admin" "secret")))]

theorem quietRun_starts_disengaged :
    ∃ w, run (step (sampleBroker.withGuard sampleGuard)) .new quietRun = some w ∧
      StartsTransport (sampleBroker.withGuard sampleGuard) w (.advance 1 .go) 1 ∧
      w.guard.kill.engaged = false := by
  refine ⟨_, rfl, ⟨_, _, _, _, rfl, rfl⟩, ?_⟩
  exact transport_starts_disengaged sampleBroker sampleGuard quietRun _ rfl (by decide) (.advance 1 .go) 1
    ⟨_, _, _, _, rfl, rfl⟩

/-- Engaged while the sample write is parked, the switch does not stop it. -/
theorem parked_write_starts_engaged :
    ∃ (actions : List Action) (w : World) (action : Action) (i : Nat),
      run (step (sampleBroker.withGuard sampleGuard)) .new actions = some w ∧
      StartsTransport (sampleBroker.withGuard sampleGuard) w action i ∧
      w.guard.kill.engaged = true := by
  refine ⟨park sampleRequest ++ [.engage "incident"] ++ approve, _, .advance 0 .go, 0, rfl, ?_, rfl⟩
  exact ⟨_, _, _, _, rfl, rfl⟩

end Daimon.Proof.Broker
