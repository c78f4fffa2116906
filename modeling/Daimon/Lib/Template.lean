import Mathlib.Data.List.Basic

/-!
# Templates with named slots

A template is a text in which a name between an opening and a closing mark stands for a value. The
scanner is the usual loop: copy up to the next opening mark, take the name up to the next closing
mark, copy its value, go on behind it. A layout says what the slots of a template are; the scanner
succeeds exactly when the template has a layout whose names all have values.
-/

namespace Daimon.Lib

variable {α ε : Type*} [DecidableEq α]

def cut (mark : α) : List α → Option (List α × List α)
  | [] => none
  | x :: xs =>
      if x = mark then some ([], xs)
      else (cut mark xs).map fun (before, after) => (x :: before, after)

theorem cut_eq_some {mark : α} {text before after : List α} :
    cut mark text = some (before, after) ↔ text = before ++ mark :: after ∧ mark ∉ before := by
  induction text generalizing before with
  | nil => simp [cut]
  | cons x xs ih =>
      by_cases here : x = mark
      · subst here
        simp only [cut, if_pos, Option.some.injEq, Prod.mk.injEq]
        constructor
        · rintro ⟨rfl, rfl⟩
          exact ⟨rfl, List.not_mem_nil⟩
        · rintro ⟨split, absent⟩
          cases before with
          | nil => exact ⟨rfl, (List.cons.inj split).2⟩
          | cons b bs => exact absurd (List.mem_cons.mpr (Or.inl (List.cons.inj split).1)) absent
      · simp only [cut, if_neg here, Option.map_eq_some_iff]
        constructor
        · rintro ⟨⟨front, back⟩, found, same⟩
          obtain ⟨rfl, rfl⟩ := Prod.mk.inj same
          obtain ⟨rfl, absent⟩ := ih.mp found
          refine ⟨rfl, ?_⟩
          simpa [Ne.symm here] using absent
        · rintro ⟨split, absent⟩
          cases before with
          | nil => exact absurd (List.cons.inj split).1 here
          | cons b bs =>
              obtain ⟨rfl, rest⟩ := List.cons.inj split
              exact ⟨(bs, after), ih.mpr ⟨rest, fun member => absent (List.mem_cons_of_mem _ member)⟩, rfl⟩

theorem cut_eq_none {mark : α} {text : List α} : cut mark text = none ↔ mark ∉ text := by
  induction text with
  | nil => simp [cut]
  | cons x xs ih =>
      by_cases here : x = mark
      · simp [cut, here]
      · simp [cut, here, ih, Ne.symm here]

theorem cut_length {mark : α} {text before after : List α} (found : cut mark text = some (before, after)) :
    after.length < text.length := by
  obtain ⟨rfl, -⟩ := (cut_eq_some).mp found
  simp
  omega

/-! ## The scanner -/

/-- What a scan ends with where a slot is not closed, given the text after its opening mark, or has no
value, given its name. -/
structure SlotErrors (α ε : Type*) where
  unterminated : List α → ε
  unresolved : List α → ε

variable (opening closing : α) (errors : SlotErrors α ε) (values : List α → Option (List α))

def fillLoop : Nat → List α → List α → Option (Except ε (List α))
  | 0, _, _ => none
  | fuel + 1, out, rest =>
      match cut opening rest with
      | none => some (.ok (out ++ rest))
      | some (before, after) =>
          match cut closing after with
          | none => some (.error (errors.unterminated after))
          | some (name, rest) =>
              match values name with
              | none => some (.error (errors.unresolved name))
              | some value => fillLoop fuel (out ++ before ++ value) rest

theorem fillLoop_isSome (fuel : Nat) (out rest : List α) (enough : rest.length < fuel) :
    (fillLoop opening closing errors values fuel out rest).isSome := by
  induction fuel generalizing out rest with
  | zero => omega
  | succ fuel ih =>
      simp only [fillLoop]
      split
      · rfl
      · rename_i before after opened
        split
        · rfl
        · rename_i name left closed
          split
          · rfl
          · have shorter := cut_length opened
            have shortest := cut_length closed
            exact ih _ _ (by omega)

theorem fillLoop_mono {fuel more : Nat} {out rest : List α} {result : Except ε (List α)}
    (ended : fillLoop opening closing errors values fuel out rest = some result) (le : fuel ≤ more) :
    fillLoop opening closing errors values more out rest = some result := by
  induction fuel generalizing more out rest with
  | zero => cases ended
  | succ fuel ih =>
      obtain ⟨more, rfl⟩ : ∃ n, more = n + 1 := ⟨more - 1, by omega⟩
      simp only [fillLoop] at ended ⊢
      split
      · rename_i absent
        simpa only [absent] using ended
      · rename_i before after opened
        simp only [opened] at ended
        split
        · rename_i absent
          simpa only [absent] using ended
        · rename_i name left closed
          simp only [closed] at ended
          split
          · rename_i absent
            simpa only [absent] using ended
          · rename_i value found
            simp only [found] at ended
            exact ih ended (by omega)

def fill (template : List α) : Except ε (List α) :=
  (fillLoop opening closing errors values (template.length + 1) [] template).get
    (fillLoop_isSome opening closing errors values _ _ _ (Nat.lt_succ_self _))

theorem fillLoop_eq_fill (template : List α) (fuel : Nat) (enough : template.length < fuel) :
    fillLoop opening closing errors values fuel [] template =
      some (fill opening closing errors values template) :=
  fillLoop_mono opening closing errors values (Option.some_get _).symm enough

/-! ## Layouts -/

/-- A reading of a template: each slot's name with the text before it, and the text after the last. -/
structure Layout (α : Type*) where
  slots : List (List α × List α)
  last : List α

namespace Layout

def unparse (layout : Layout α) : List α :=
  layout.slots.flatMap (fun (before, name) => before ++ opening :: name ++ [closing]) ++ layout.last

/-- The slots of `template` are those of the layout: no text holds an opening mark, no name a closing
one. -/
structure Reads (layout : Layout α) (template : List α) : Prop where
  unparse : layout.unparse opening closing = template
  texts : ∀ slot ∈ layout.slots, opening ∉ slot.1
  names : ∀ slot ∈ layout.slots, closing ∉ slot.2
  last : opening ∉ layout.last

def Resolved (layout : Layout α) : Prop := ∀ slot ∈ layout.slots, ∃ value, values slot.2 = some value

/-- The filled template, each character with the slot it came from, or `none` where it is the
template's own. -/
def pieces (layout : Layout α) : List (α × Option (List α)) :=
  layout.slots.flatMap (fun (before, name) =>
    before.map (·, none) ++ ((values name).getD []).map (·, some name)) ++ layout.last.map (·, none)

omit [DecidableEq α] in
theorem pieces_value {layout : Layout α} {c : α} {name : List α}
    (piece : (c, some name) ∈ layout.pieces values) :
    ∃ before, (before, name) ∈ layout.slots ∧ ∃ value, values name = some value ∧ c ∈ value := by
  rcases List.mem_append.mp piece with inSlot | inLast
  · obtain ⟨⟨before, slot⟩, member, found⟩ := List.mem_flatMap.mp inSlot
    rcases List.mem_append.mp found with own | filled
    · simp at own
    · obtain ⟨d, inValue, same⟩ := List.mem_map.mp filled
      obtain ⟨rfl, ⟨rfl⟩⟩ := Prod.mk.inj same
      refine ⟨before, member, ?_⟩
      cases found : values name with
      | none => simp [found] at inValue
      | some value => exact ⟨value, rfl, by simpa [found] using inValue⟩
  · simp at inLast

end Layout

def Filled (template out : List α) : Prop :=
  ∃ layout : Layout α, layout.Reads opening closing template ∧ layout.Resolved values ∧
    out = (layout.pieces values).map Prod.fst

variable {opening closing errors values}

theorem fillLoop_ok {fuel : Nat} {out rest text : List α}
    (ended : fillLoop opening closing errors values fuel out rest = some (.ok text)) :
    ∃ layout : Layout α, layout.Reads opening closing rest ∧ layout.Resolved values ∧
      text = out ++ (layout.pieces values).map Prod.fst := by
  induction fuel generalizing out rest with
  | zero => cases ended
  | succ fuel ih =>
      simp only [fillLoop] at ended
      split at ended
      · rename_i absent
        cases ended
        refine ⟨⟨[], rest⟩, ⟨rfl, by simp, by simp, (cut_eq_none).mp absent⟩, by simp [Layout.Resolved], ?_⟩
        simp [Layout.pieces, Function.comp_def]
      · rename_i before after opened
        split at ended
        · cases ended
        · rename_i name left closed
          split at ended
          · cases ended
          · rename_i value found
            obtain ⟨layout, reads, resolved, rfl⟩ := ih ended
            obtain ⟨rfl, noOpening⟩ := (cut_eq_some).mp opened
            obtain ⟨rfl, noClosing⟩ := (cut_eq_some).mp closed
            refine ⟨⟨(before, name) :: layout.slots, layout.last⟩, ⟨?_, ?_, ?_, reads.last⟩, ?_, ?_⟩
            · rw [← reads.unparse]
              simp [Layout.unparse]
            · simpa using ⟨noOpening, by simpa using reads.texts⟩
            · simpa using ⟨noClosing, by simpa using reads.names⟩
            · simpa [Layout.Resolved, found] using resolved
            · simp [Layout.pieces, found, Function.comp_def]

theorem fillLoop_of_layout {layout : Layout α} {rest : List α} (reads : layout.Reads opening closing rest)
    (resolved : layout.Resolved values) {fuel : Nat} (enough : layout.slots.length < fuel) (out : List α) :
    fillLoop opening closing errors values fuel out rest =
      some (.ok (out ++ (layout.pieces values).map Prod.fst)) := by
  obtain ⟨slots, last⟩ := layout
  induction slots generalizing rest fuel out with
  | nil =>
      obtain ⟨fuel, rfl⟩ : ∃ n, fuel = n + 1 := ⟨fuel - 1, by omega⟩
      have whole : last = rest := by simpa [Layout.unparse] using reads.unparse
      subst whole
      simp [fillLoop, (cut_eq_none).mpr reads.last, Layout.pieces, Function.comp_def]
  | cons slot slots ih =>
      obtain ⟨before, name⟩ := slot
      obtain ⟨fuel, rfl⟩ : ∃ n, fuel = n + 1 := ⟨fuel - 1, by omega⟩
      obtain ⟨value, found⟩ := resolved (before, name) (by simp)
      have tail : Layout.Reads opening closing ⟨slots, last⟩ (Layout.unparse opening closing ⟨slots, last⟩) :=
        ⟨rfl, fun slot member => reads.texts slot (List.mem_cons_of_mem _ member),
          fun slot member => reads.names slot (List.mem_cons_of_mem _ member), reads.last⟩
      have split : rest = before ++ opening :: (name ++ closing ::
          Layout.unparse opening closing ⟨slots, last⟩) := by
        rw [← reads.unparse]
        simp [Layout.unparse]
      have opened := (cut_eq_some).mpr ⟨split, reads.texts (before, name) (by simp)⟩
      have closed : cut closing (name ++ closing :: Layout.unparse opening closing ⟨slots, last⟩) =
          some (name, Layout.unparse opening closing ⟨slots, last⟩) :=
        (cut_eq_some).mpr ⟨rfl, reads.names (before, name) (by simp)⟩
      simp only [fillLoop, opened, closed, found]
      rw [ih _ tail (fun slot member => resolved slot (List.mem_cons_of_mem _ member))
        (by simpa using enough)]
      simp [Layout.pieces, found, Function.comp_def]

omit [DecidableEq α] in
theorem Layout.Reads.length_slots {layout : Layout α} {template : List α}
    (reads : layout.Reads opening closing template) : layout.slots.length ≤ template.length := by
  rw [← reads.unparse]
  obtain ⟨slots, last⟩ := layout
  clear reads
  induction slots with
  | nil => simp
  | cons slot slots ih =>
      simp only [Layout.unparse, List.flatMap_cons, List.length_append, List.length_cons] at ih ⊢
      omega

theorem fill_eq_ok {template out : List α} :
    fill opening closing errors values template = .ok out ↔ Filled opening closing values template out := by
  have ended := fillLoop_eq_fill opening closing errors values template _ (Nat.lt_succ_self _)
  constructor
  · intro filled
    rw [filled] at ended
    simpa [Filled] using fillLoop_ok ended
  · rintro ⟨layout, reads, resolved, rfl⟩
    have bound := reads.length_slots
    rw [fillLoop_of_layout reads resolved (by omega)] at ended
    simpa using (Option.some.inj ended).symm

end Daimon.Lib
