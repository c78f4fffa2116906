import Daimon.Guard.KillSwitch

/-!
# No automatic resume

The watcher releases the switch when its `last` flag is up and it sees no file. An engagement is
therefore held until the file is removed as long as the file stands whenever the flag is up, and no
observation from before the engagement is still to be applied.
-/

namespace Daimon.Proof.Guard
open Daimon.Guard Lib

/-- An error of the file system does not hide a file that the watcher knows of, the watcher engages
while the file is still there, and SIGUSR1 engages neither ahead of a pending release nor with the
watcher's flag up and no file. -/
def keepsHold (k : KillSwitch) : KillSwitch.Action → Bool
  | .tryExists answered => answered || !(k.last && k.file)
  | .readToString _ => k.file
  | .engage => k.watcher != .releasing && (k.file || !k.last)
  | _ => true

def Held (k : KillSwitch) : Prop :=
  k.state.engaged = true → k.removed = false → k.watcher ≠ .releasing ∧ (k.last = true → k.file = true)

theorem held_new (file : Bool) : Held (KillSwitch.new file) := by
  intro engaged
  cases engaged

theorem step_held (path : String) (k : KillSwitch) (action : KillSwitch.Action) (k' : KillSwitch)
    (keeps : keepsHold k action = true) (held : Held k) (stepped : k.step path action = some k') :
    Held k' := by
  cases action with
  | tryExists answered =>
      simp only [KillSwitch.step] at stepped
      split at stepped
      · split at stepped
        · cases stepped
          exact held
        · rename_i idle differs
          cases stepped
          intro engaged kept
          have present := (held engaged kept).2
          refine ⟨?_, present⟩
          cases last : k.last <;> cases file : k.file <;> cases answered <;>
            simp_all [keepsHold]
      · cases stepped
  | readToString text =>
      simp only [KillSwitch.step] at stepped
      split at stepped
      · cases stepped
        intro _ _
        exact ⟨by simp, fun _ => keeps⟩
      · cases stepped
  | release =>
      simp only [KillSwitch.step] at stepped
      split at stepped
      · cases stepped
        intro engaged
        cases engaged
      · cases stepped
  | receive =>
      simp only [KillSwitch.step] at stepped
      split at stepped
      · cases stepped
        exact held
      · cases stepped
  | write created =>
      simp only [KillSwitch.step] at stepped
      split at stepped
      · cases stepped
        intro engaged kept
        obtain ⟨notReleasing, present⟩ := held engaged kept
        refine ⟨notReleasing, ?_⟩
        intro flag
        simp [present flag]
      · cases stepped
  | engage =>
      simp only [KillSwitch.step] at stepped
      split at stepped
      · cases stepped
        intro _ _
        simp only [keepsHold, Bool.and_eq_true, bne_iff_ne] at keeps
        refine ⟨keeps.1, ?_⟩
        intro flag
        simpa [KillSwitch.engageState, show k.last = true from flag] using keeps.2
      · cases stepped
  | create =>
      cases stepped
      intro engaged kept
      exact ⟨(held engaged kept).1, fun _ => rfl⟩
  | remove =>
      cases stepped
      intro engaged kept
      obtain ⟨keptBefore, absent⟩ := Bool.or_eq_false_iff.mp kept
      obtain ⟨notReleasing, present⟩ := held engaged keptBefore
      refine ⟨notReleasing, ?_⟩
      intro flag
      rw [present flag] at absent
      cases absent

theorem step_clears {path : String} {k k' : KillSwitch} {action : KillSwitch.Action}
    (stepped : k.step path action = some k') (engaged : k.state.engaged = true)
    (cleared : k'.state.engaged = false) : k.watcher = .releasing := by
  cases action <;> simp only [KillSwitch.step] at stepped
  case release =>
    split at stepped
    · assumption
    · cases stepped
  all_goals try split at stepped
  all_goals try split at stepped
  all_goals first
    | (cases stepped; simp_all [KillSwitch.engageState, KillState.engage])
    | cases stepped

theorem release_after_removal (path : String) (file : Bool) (actions : List KillSwitch.Action)
    (k : KillSwitch)
    (keeps : AllSteps (KillSwitch.step path) (fun k action => keepsHold k action = true) (.new file) actions)
    (reached : run (KillSwitch.step path) (.new file) actions = some k)
    (action : KillSwitch.Action) (k' : KillSwitch) (stepped : k.step path action = some k')
    (engaged : k.state.engaged = true) (released : k'.state.engaged = false) : k.removed = true := by
  have held : Held k := invariant_of_allSteps (step_held path) keeps (held_new file) reached
  have releasing := step_clears stepped engaged released
  by_contra kept
  exact (held engaged (by simpa using kept)).1 releasing

def operatorResumes : List KillSwitch.Action :=
  [.tryExists true, .readToString (some "maintenance"), .receive, .write true, .engage, .remove, .tryExists true]

theorem operatorResumes_after_removal :
    ∃ k k', run (KillSwitch.step "KILL") (.new true) operatorResumes = some k ∧
      k.step "KILL" .release = some k' ∧ k.state.engaged = true ∧ k'.state.engaged = false ∧
      k.removed = true := by
  refine ⟨_, _, rfl, rfl, rfl, rfl, ?_⟩
  exact release_after_removal "KILL" true operatorResumes _ (by decide) rfl .release _ rfl rfl rfl

/-- A transient error of the file system releases the switch with the file in place; so does the
absence seen before a SIGUSR1 and applied after it. -/
theorem transient_error_releases :
    (∃ k k', run (KillSwitch.step "KILL") (.new true)
        [.tryExists true, .readToString (some "incident"), .tryExists false] = some k ∧
      k.step "KILL" .release = some k' ∧ k.state.engaged = true ∧ k'.state.engaged = false ∧
      k.removed = false ∧ k'.file = true) ∧
    (∃ k k', run (KillSwitch.step "KILL") (.new true)
        [.tryExists true, .readToString (some "incident"), .remove, .tryExists true,
          .receive, .write true, .engage] = some k ∧
      k.step "KILL" .release = some k' ∧ k.state.engaged = true ∧ k'.state.engaged = false ∧
      k.removed = false ∧ k'.file = true) :=
  ⟨⟨_, _, rfl, rfl, rfl, rfl, rfl, rfl⟩, ⟨_, _, rfl, rfl, rfl, rfl, rfl, rfl⟩⟩

end Daimon.Proof.Guard
