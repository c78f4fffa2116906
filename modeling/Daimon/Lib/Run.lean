import Mathlib.Data.List.Basic

/-!
# Runs of a labelled step function

A system is given by a partial step function: a label carries every choice the environment makes,
so a step is a function of the state and the label, and `none` says that the label is not enabled.
-/

namespace Daimon.Lib

variable {σ ε : Type*} {step : σ → ε → Option σ}

def run (step : σ → ε → Option σ) : σ → List ε → Option σ
  | s, [] => some s
  | s, e :: es => (step s e).bind fun t => run step t es

/-- Every step of the run meets `condition`, a condition on its label and the state before it. -/
def AllSteps (step : σ → ε → Option σ) (condition : σ → ε → Prop) : σ → List ε → Prop
  | _, [] => True
  | s, e :: es => condition s e ∧
      match step s e with
      | some t => AllSteps step condition t es
      | none => True

instance decidableAllSteps (step : σ → ε → Option σ) (condition : σ → ε → Prop)
    [∀ s e, Decidable (condition s e)] : ∀ s es, Decidable (AllSteps step condition s es)
  | _, [] => isTrue trivial
  | s, e :: es =>
      have : Decidable (match step s e with
          | some t => AllSteps step condition t es
          | none => True) :=
        match step s e with
        | some t => decidableAllSteps step condition t es
        | none => isTrue trivial
      inferInstanceAs (Decidable (_ ∧ _))

def Always (step : σ → ε → Option σ) (p : σ → Prop) : σ → List ε → Prop
  | s, [] => p s
  | s, e :: es => p s ∧
      match step s e with
      | some t => Always step p t es
      | none => True

@[simp] theorem run_nil (s : σ) : run step s [] = some s := rfl

theorem run_cons {s u : σ} {e : ε} {es : List ε} :
    run step s (e :: es) = some u ↔ ∃ t, step s e = some t ∧ run step t es = some u := by
  simp [run, Option.bind_eq_some_iff]

theorem run_append {s t : σ} {es fs : List ε} (reached : run step s es = some t) :
    run step s (es ++ fs) = run step t fs := by
  induction es generalizing s with
  | nil =>
      simp only [run_nil, Option.some.injEq] at reached
      rw [reached, List.nil_append]
  | cons e es ih =>
      obtain ⟨r, first, rest⟩ := (run_cons).mp reached
      simp only [List.cons_append, run, first, Option.bind_some, ih rest]

theorem invariant_of_allSteps {condition : σ → ε → Prop} {inv : σ → Prop}
    (preserved : ∀ s e t, condition s e → inv s → step s e = some t → inv t)
    {s t : σ} {es : List ε} (meets : AllSteps step condition s es) (start : inv s)
    (reached : run step s es = some t) : inv t := by
  induction es generalizing s with
  | nil =>
      simp only [run_nil, Option.some.injEq] at reached
      exact reached ▸ start
  | cons e es ih =>
      obtain ⟨r, first, rest⟩ := (run_cons).mp reached
      have remaining := meets.2
      rw [first] at remaining
      exact ih remaining (preserved s e r meets.1 start first) rest

theorem allSteps_of_forall {condition : σ → ε → Prop} {es : List ε} (always : ∀ e ∈ es, ∀ s, condition s e) (s : σ) :
    AllSteps step condition s es := by
  induction es generalizing s with
  | nil => trivial
  | cons e es ih =>
      refine ⟨always e List.mem_cons_self s, ?_⟩
      split
      · exact ih (fun e member => always e (List.mem_cons_of_mem _ member)) _
      · trivial

theorem allSteps_append {condition : σ → ε → Prop} {s t : σ} {es fs : List ε} (reached : run step s es = some t) :
    AllSteps step condition s (es ++ fs) ↔ AllSteps step condition s es ∧ AllSteps step condition t fs := by
  induction es generalizing s with
  | nil =>
      simp only [run_nil, Option.some.injEq] at reached
      simp [reached, AllSteps]
  | cons e es ih =>
      obtain ⟨r, first, rest⟩ := (run_cons).mp reached
      simp only [List.cons_append, AllSteps, first, ih rest, and_assoc]

theorem allSteps_cons {condition : σ → ε → Prop} {s t : σ} {e : ε} {es : List ε} (taken : step s e = some t) :
    AllSteps step condition s (e :: es) ↔ condition s e ∧ AllSteps step condition t es := by
  simp only [AllSteps, taken]

theorem AllSteps.and {first second : σ → ε → Prop} {s : σ} {es : List ε} (met : AllSteps step first s es)
    (also : AllSteps step second s es) : AllSteps step (fun s e => first s e ∧ second s e) s es := by
  induction es generalizing s with
  | nil => trivial
  | cons e es ih =>
      refine ⟨⟨met.1, also.1⟩, ?_⟩
      have later := met.2
      have later' := also.2
      split
      · rename_i t taken
        rw [taken] at later later'
        exact ih later later'
      · trivial

theorem AllSteps.imp {first second : σ → ε → Prop} {s : σ} {es : List ε} (met : AllSteps step first s es)
    (weaker : ∀ s e, first s e → second s e) : AllSteps step second s es := by
  induction es generalizing s with
  | nil => trivial
  | cons e es ih =>
      refine ⟨weaker s e met.1, ?_⟩
      have later := met.2
      split
      · rename_i t taken
        rw [taken] at later
        exact ih later
      · trivial

theorem Always.here {p : σ → Prop} {s : σ} {es : List ε} (always : Always step p s es) : p s := by
  cases es with
  | nil => exact always
  | cons e es => exact always.1

theorem always_iff_allSteps {condition : σ → ε → Prop} {p : σ → Prop}
    (exact : ∀ s e t, p s → step s e = some t → (condition s e ↔ p t)) {s t : σ} {es : List ε} (start : p s)
    (reached : run step s es = some t) : Always step p s es ↔ AllSteps step condition s es := by
  induction es generalizing s with
  | nil => exact iff_of_true start trivial
  | cons e es ih =>
      obtain ⟨r, first, rest⟩ := (run_cons).mp reached
      simp only [Always, AllSteps, first]
      constructor
      · rintro ⟨-, later⟩
        exact ⟨(exact s e r start first).mpr later.here, (ih later.here rest).mp later⟩
      · rintro ⟨met, later⟩
        exact ⟨start, (ih ((exact s e r start first).mp met) rest).mpr later⟩

/-- A property that a step keeps exactly where it meets a condition holds after a run exactly where it held before
and every step met the condition. -/
theorem holds_iff_allSteps {condition : σ → ε → Prop} {p : σ → Prop}
    (exact : ∀ s e t, step s e = some t → (p t ↔ p s ∧ condition s e)) {s t : σ} {es : List ε}
    (reached : run step s es = some t) : p t ↔ p s ∧ AllSteps step condition s es := by
  induction es generalizing s with
  | nil =>
      simp only [run_nil, Option.some.injEq] at reached
      simp [reached, AllSteps]
  | cons e es ih =>
      obtain ⟨r, first, rest⟩ := (run_cons).mp reached
      rw [ih rest, exact s e r first, allSteps_cons first, and_assoc]

theorem invariant_of_run {inv : σ → Prop}
    (preserved : ∀ s e t, inv s → step s e = some t → inv t)
    {s t : σ} {es : List ε} (start : inv s) (reached : run step s es = some t) : inv t :=
  invariant_of_allSteps (fun s e t _ => preserved s e t)
    (allSteps_of_forall (fun _ _ _ => trivial) s) start reached

/-- Where each step commutes with a change of states and labels, each run does. -/
theorem run_map {σ' ε' : Type*} {step' : σ' → ε' → Option σ'} {f : σ → σ'} {g : ε → ε'}
    (commutes : ∀ s e, step' (f s) (g e) = (step s e).map f) (s : σ) (es : List ε) :
    run step' (f s) (es.map g) = (run step s es).map f := by
  induction es generalizing s with
  | nil => rfl
  | cons e es ih =>
      rw [List.map_cons, run, run, commutes]
      cases step s e with
      | none => rfl
      | some t => exact ih t

/-- An invariant of a state and the labels that led to it. -/
theorem history_of_run {inv : List ε → σ → Prop}
    (preserved : ∀ past s e t, inv past s → step s e = some t → inv (past ++ [e]) t)
    {s t : σ} {past es : List ε} (start : inv past s) (reached : run step s es = some t) : inv (past ++ es) t := by
  induction es generalizing s past with
  | nil =>
      simp only [run_nil, Option.some.injEq] at reached
      rw [List.append_nil, ← reached]
      exact start
  | cons e es ih =>
      obtain ⟨r, first, rest⟩ := (run_cons).mp reached
      have next := ih (preserved past s e r start first) rest
      rwa [List.append_assoc, List.singleton_append] at next

end Daimon.Lib
