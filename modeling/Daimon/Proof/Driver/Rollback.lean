import Daimon.Lib.JsonLeaves
import Daimon.Driver.RouterOs
import Daimon.Orchestrator.Dispatch
import Daimon.Proof.Driver.Param

/-!
# Rollback commands

The forward command of a RouterOS write and the command that the orchestrator's projected parameters
build for its compensator.
-/

namespace Daimon.Proof.Driver
open Daimon.Core Lib Daimon.Driver Daimon.Driver.RouterOs
open Daimon.Orchestrator (compensationParams)
open Daimon.Lib.Json (bind_ok)

/-! ## Parameters -/

theorem requireStr_ok_iff {p : Json} {capability key value : String} :
    requireStr p capability key = .ok value ↔ strParam p key = some value := by
  unfold requireStr
  cases strParam p key <;> simp

theorem check_ok_iff {value : String} {cls : ParamClass} :
    check value cls = .ok () ↔ validate value cls = .ok () := by
  unfold check
  cases validate value cls <;> simp

theorem strParam_some_iff {p : Json} {key value : String} :
    strParam p key = some value ↔ p.get? key = some (.string value) := by
  unfold strParam
  cases found : p.get? key with
  | none => simp
  | some j => cases j <;> simp [Json.asStr?]

theorem get?_insertField_ne {key other : String} (distinct : other ≠ key) (value : Json)
    (fields : List (String × Json)) :
    Json.get? other (.object (Json.insertField key value fields)) = Json.get? other (.object fields) :=
  Json.lookup_insertField_of_ne distinct value fields

theorem get?_compensationParams {key : String} (other : key ≠ "match") (params : Json) (result : Option Json) :
    (compensationParams params result).get? key = params.get? key := by
  cases params with
  | object fields =>
      simp only [compensationParams]
      split
      · rfl
      · split
        · exact get?_insertField_ne other _ fields
        · rfl
  | _ => rfl

theorem get?_match_compensationParams (params : Json) (result : Option Json) :
    (compensationParams params result).get? "match" =
      (params.get? "match").or ((strParam params "comment").map .string) := by
  cases params with
  | object fields =>
      simp only [compensationParams, strParam, Json.get?]
      cases present : fields.lookup "match" with
      | some explicit => simp [present]
      | none =>
          simp only [Option.isSome_none, Bool.false_eq_true, if_false, Option.none_or]
          cases found : (fields.lookup "comment").bind Json.asStr? with
          | some comment => simp [Json.lookup_insertField_self]
          | none => simp [present]
  | _ => rfl

/-! ## Quoted text -/

theorem no_quote_of_validate {value : String} {cls : ParamClass}
    (plain : cls = .safeText ∨ cls = .cidr ∨ cls = .identifier)
    (valid : validate value cls = .ok ()) : '"' ∉ value.toList := by
  intro member
  rcases plain with rfl | rfl | rfl
  · exact absurd (validateChars_ok valid _ member) (by decide)
  · simp only [validate] at valid
    split at valid
    · cases valid
    case h_2 chars => exact absurd (validateChars_ok chars _ member) (by decide)
  · exact absurd (validateChars_ok valid _ member) (by decide)

theorem quoted_inj {x y c d : List Char} (noQuote : '"' ∉ c) (noQuote' : '"' ∉ d)
    (same : x ++ '"' :: c ++ ['"'] = y ++ '"' :: d ++ ['"']) : c = d := by
  have prefixes : x ++ '"' :: c = y ++ '"' :: d := List.append_cancel_right same
  have reversed : c.reverse ++ '"' :: x.reverse = d.reverse ++ '"' :: y.reverse := by
    simpa using congrArg List.reverse prefixes
  have plain {l : List Char} (none : '"' ∉ l) : ∀ a ∈ l.reverse, (a != '"') = true := by
    intro a member
    have : a ≠ '"' := fun same => none (same ▸ List.mem_reverse.mp member)
    simpa using this
  have taken := congrArg (List.takeWhile (· != '"')) reversed
  rw [List.takeWhile_append_of_pos (plain noQuote), List.takeWhile_append_of_pos (plain noQuote')] at taken
  simpa using taken

/-! ## Commands -/

theorem pushStr_ok {p : Json} {key : String} {cls : ParamClass} {render : String → String} {cmd out : String}
    (pushed : pushStr p key cls render cmd = .ok out) :
    (strParam p key = none ∧ out = cmd) ∨
    ∃ value, strParam p key = some value ∧ validate value cls = .ok () ∧ out = cmd ++ render value := by
  unfold pushStr at pushed
  split at pushed
  case h_1 absent => exact Or.inl ⟨absent, (Except.ok.inj pushed).symm⟩
  case h_2 value present =>
    obtain ⟨⟨⟩, checked, rendered⟩ := bind_ok pushed
    exact Or.inr ⟨value, present, (check_ok_iff).mp checked, (Except.ok.inj rendered).symm⟩

theorem no_quote_append {front back : String} (plain : '"' ∉ front.toList) (plain' : '"' ∉ back.toList) :
    '"' ∉ (front ++ back).toList := by
  rw [String.toList_append, List.mem_append, not_or]
  exact ⟨plain, plain'⟩

/-- A drop rule's command holds a quote only around its comment. -/
theorem addDropRule_ok {params : Json} {command : String} (built : addDropRule (some params) = .ok command) :
    ∃ base : String, '"' ∉ base.toList ∧
      ((strParam params "comment" = none ∧ command = base) ∨
       ∃ comment, strParam params "comment" = some comment ∧ validate comment .safeText = .ok () ∧
         command = base ++ (" comment=\"" ++ comment ++ "\"")) := by
  obtain ⟨p, isParams, built⟩ := bind_ok built
  obtain rfl : params = p := Except.ok.inj isParams
  obtain ⟨dst, -, built⟩ := bind_ok built
  obtain ⟨⟨⟩, dstChecked, built⟩ := bind_ok built
  obtain ⟨withSrc, srcPushed, built⟩ := bind_ok built
  obtain ⟨withInterface, interfacePushed, built⟩ := bind_ok built
  have plainDst := no_quote_of_validate (Or.inr (Or.inl rfl)) ((check_ok_iff).mp dstChecked)
  have plainStart : '"' ∉ "/ip firewall filter add chain=forward action=drop dst-address=".toList := by
    rw [show "/ip firewall filter add chain=forward action=drop dst-address=".toList = _ from String.toList_ofList]
    decide
  have plainBase := no_quote_append plainStart plainDst
  have plainSrc : '"' ∉ withSrc.toList := by
    rcases pushStr_ok srcPushed with ⟨-, rfl⟩ | ⟨src, -, valid, rfl⟩
    · exact plainBase
    · have plain := no_quote_of_validate (Or.inr (Or.inl rfl)) valid
      exact no_quote_append plainBase (no_quote_append (by decide) plain)
  have plainInterface : '"' ∉ withInterface.toList := by
    rcases pushStr_ok interfacePushed with ⟨-, rfl⟩ | ⟨name, -, valid, rfl⟩
    · exact plainSrc
    · have plain := no_quote_of_validate (Or.inr (Or.inr rfl)) valid
      exact no_quote_append plainSrc (no_quote_append (by decide) plain)
  exact ⟨withInterface, plainInterface, pushStr_ok built⟩

theorem removeRule_ok_iff {params : Json} {undo : String} :
    removeRule (some params) = .ok undo ↔
      ∃ selector, strParam params "match" = some selector ∧ validate selector .identifier = .ok () ∧
        undo = "/ip firewall filter remove [find " ++ selector ++ "]" := by
  constructor
  · intro built
    obtain ⟨p, isParams, built⟩ := bind_ok built
    obtain rfl : params = p := Except.ok.inj isParams
    obtain ⟨selector, present, built⟩ := bind_ok built
    obtain ⟨⟨⟩, checked, built⟩ := bind_ok built
    exact ⟨selector, (requireStr_ok_iff).mp present, (check_ok_iff).mp checked, (Except.ok.inj built).symm⟩
  · rintro ⟨selector, present, valid, rfl⟩
    simp [removeRule, requireParams, (requireStr_ok_iff).mpr present, (check_ok_iff).mpr valid, bind, Except.bind,
      pure, Except.pure]

theorem removeSshKey_ok_iff {params : Json} {undo : String} :
    removeSshKey (some params) = .ok undo ↔
      ∃ number, strParam params "number" = some number ∧ validate number .int = .ok () ∧
        undo = "/user ssh-keys remove " ++ number := by
  constructor
  · intro built
    obtain ⟨p, isParams, built⟩ := bind_ok built
    obtain rfl : params = p := Except.ok.inj isParams
    obtain ⟨number, present, built⟩ := bind_ok built
    obtain ⟨⟨⟩, checked, built⟩ := bind_ok built
    exact ⟨number, (requireStr_ok_iff).mp present, (check_ok_iff).mp checked, (Except.ok.inj built).symm⟩
  · rintro ⟨number, present, valid, rfl⟩
    simp [removeSshKey, requireParams, (requireStr_ok_iff).mpr present, (check_ok_iff).mpr valid, bind, Except.bind,
      pure, Except.pure]

/-! ## Every rollback -/

/-- The compensator's command can be built, and that of a drop rule selects the comment that the rule
was given. -/
def Undoes (name compensator : String) (params : Json) (result : Option Json) (command : String) : Prop :=
  ∃ undo, buildCommand compensator (some (compensationParams params result)) = .ok undo ∧
    (name = "network.routeros.firewall_add_drop_rule" →
      ∃ base comment : String, command = base ++ (" comment=\"" ++ comment ++ "\"") ∧
        undo = "/ip firewall filter remove [find " ++ comment ++ "]")

/-- A drop rule with a comment of the selector's class and no other selector; a key import that also
carries the row number its removal asks for. -/
def Reversible (name : String) (params : Json) : Prop :=
  (name = "network.routeros.firewall_add_drop_rule" ∧ ∃ comment,
    params.get? "comment" = some (.string comment) ∧ validate comment .identifier = .ok () ∧
    (params.get? "match" = none ∨ params.get? "match" = some (.string comment))) ∨
  (name = "network.routeros.user_ssh_key_import" ∧ ∃ number,
    params.get? "number" = some (.string number) ∧ validate number .int = .ok ())

theorem addDropRule_undoes_iff {params : Json} {result : Option Json} {command : String}
    (built : addDropRule (some params) = .ok command) :
    (∃ undo, removeRule (some (compensationParams params result)) = .ok undo ∧
      ∃ base comment : String, command = base ++ (" comment=\"" ++ comment ++ "\"") ∧
        undo = "/ip firewall filter remove [find " ++ comment ++ "]") ↔
    ∃ comment, params.get? "comment" = some (.string comment) ∧ validate comment .identifier = .ok () ∧
      (params.get? "match" = none ∨ params.get? "match" = some (.string comment)) := by
  obtain ⟨base, plain, written⟩ := addDropRule_ok built
  simp only [removeRule_ok_iff, strParam_some_iff, get?_match_compensationParams]
  constructor
  · rintro ⟨undo, ⟨selector, selects, valid, rfl⟩, base', comment, split, sameUndo⟩
    obtain rfl : selector = comment := by simpa [← String.toList_inj] using sameUndo
    have noQuote := no_quote_of_validate (Or.inr (Or.inr rfl)) valid
    rcases written with ⟨-, rfl⟩ | ⟨comment, present, safe, rfl⟩
    · -- Without a comment there is no quote in the command.
      simp [split] at plain
    · have noQuote' := no_quote_of_validate (Or.inl rfl) safe
      have same : comment = selector := by
        rw [← String.toList_inj]
        refine quoted_inj noQuote' noQuote (x := base.toList ++ " comment=".toList)
          (y := base'.toList ++ " comment=".toList) ?_
        simpa [← String.toList_inj] using split
      subst same
      refine ⟨comment, (strParam_some_iff).mp present, valid, ?_⟩
      cases explicit : params.get? "match" with
      | none => exact Or.inl rfl
      | some other => exact Or.inr (by simpa [explicit] using selects)
  · rintro ⟨comment, present, valid, selector⟩
    have isComment := (strParam_some_iff).mpr present
    refine ⟨_, ⟨comment, ?_, valid, rfl⟩, base, comment, ?_, rfl⟩
    · rcases selector with none | same
      · simp [none, isComment]
      · simp [same]
    · rcases written with ⟨absent, -⟩ | ⟨comment', present', -, rfl⟩
      · simp [isComment] at absent
      · obtain rfl : comment = comment' := Option.some.inj (isComment.symm.trans present')
        rfl

theorem rollback_constructible_iff (cap : Capability) (member : cap ∈ buildCapabilities)
    (comp : CompensatingCapability) (declared : cap.compensating = some comp) (params : Json)
    (result : Option Json) (command : String) (accepted : buildCommand cap.name (some params) = .ok command) :
    Undoes cap.name comp.name params result command ↔ Reversible cap.name params := by
  simp only [buildCapabilities, List.mem_cons, List.not_mem_nil, or_false] at member
  rcases member with rfl | rfl | rfl | rfl | rfl | rfl | rfl | rfl
  case inr.inr.inr.inr.inl =>
    cases declared
    have forward : addDropRule (some params) = .ok command := accepted
    have backward : buildCommand "network.routeros.firewall_remove_rule" (some (compensationParams params result)) =
        removeRule (some (compensationParams params result)) := rfl
    have undoes := @addDropRule_undoes_iff params result command forward
    simp only [Undoes, Reversible, backward, forall_const, true_and, String.reduceEq, false_and, or_false]
    exact undoes
  case inr.inr.inr.inr.inr.inl =>
    cases declared
    have backward : buildCommand "network.routeros.user_ssh_key_remove" (some (compensationParams params result)) =
        removeSshKey (some (compensationParams params result)) := rfl
    simp [Undoes, Reversible, backward, removeSshKey_ok_iff, strParam_some_iff, get?_compensationParams]
  all_goals cases declared

def dropRule : Capability := buildCapabilities.get ⟨4, by decide⟩

def keyImport : Capability := buildCapabilities.get ⟨5, by decide⟩

def dropParams (comment : String) : Json :=
  .object [("comment", .string comment), ("dst_address", .string "10.0.0.0/24")]

theorem dropRule_rollback_constructible :
    ∃ command comp, dropRule ∈ buildCapabilities ∧ dropRule.compensating = some comp ∧
      buildCommand dropRule.name (some (dropParams "blk")) = .ok command ∧
      Undoes dropRule.name comp.name (dropParams "blk") none command := by
  refine ⟨_, _, List.get_mem _ _, rfl, rfl, ?_⟩
  exact (rollback_constructible_iff dropRule (List.get_mem _ _) _ rfl (dropParams "blk") none _ rfl).mpr
    (Or.inl ⟨rfl, "blk", rfl, rfl, Or.inl rfl⟩)

theorem accepted_writes_without_rollback :
    (∃ command comp, dropRule ∈ buildCapabilities ∧ dropRule.compensating = some comp ∧
      buildCommand dropRule.name (some (dropParams "block tiktok")) = .ok command ∧
      ∀ result, ¬ Undoes dropRule.name comp.name (dropParams "block tiktok") result command) ∧
    ∃ command comp params, keyImport ∈ buildCapabilities ∧ keyImport.compensating = some comp ∧
      params = .object [("file", .string "id.pub"), ("user", .string "admin")] ∧
      buildCommand keyImport.name (some params) = .ok command ∧
      ∀ result, ¬ Undoes keyImport.name comp.name params result command := by
  refine ⟨⟨_, _, List.get_mem _ _, rfl, rfl, ?_⟩, ⟨_, _, _, List.get_mem _ _, rfl, rfl, rfl, ?_⟩⟩
  · rintro result ⟨undo, built, -⟩
    have refused : buildCommand "network.routeros.firewall_remove_rule"
        (some (compensationParams (dropParams "block tiktok") result)) =
        .error (.param (.disallowedChar ' ' "Identifier" "block tiktok")) := rfl
    cases refused.symm.trans built
  · rintro result ⟨undo, built, -⟩
    have refused : buildCommand "network.routeros.user_ssh_key_remove"
        (some (compensationParams (.object [("file", .string "id.pub"), ("user", .string "admin")]) result)) =
        .error (.missingParam "user_ssh_key_remove.number is required") := rfl
    cases refused.symm.trans built

end Daimon.Proof.Driver
