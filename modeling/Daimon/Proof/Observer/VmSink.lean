import Daimon.Lib.Exposition
import Daimon.Observer.VmSink
import Mathlib.Data.List.Forall2

/-!
# The text that the sink posts

A rendered point is the line of one sample, so the body is read back, line by line, as the samples of the points: no
label value can end its label or its line.
-/

namespace Daimon.Proof.Observer
open Daimon.Observer Lib Exposition

/-! ## What a point stands for -/

section Sample
variable (floats : Floats) (json : Json → String)

def fieldLabels : Json → List (List Char × List Char)
  | .object fields => fields.filterMap fun field =>
      (labelValue json field.2).map fun v => ((sanitizeLabelName field.1).toList, v.toList)
  | _ => []

def pointLabels (p : MetricPoint) : List (List Char × List Char) :=
  ("source".toList, p.source.toList) :: ("source_id".toList, p.sourceId.toList) :: fieldLabels json p.labels

def sampleOf (p : MetricPoint) : Sample where
  name := (sanitizeMetricName p.name).toList
  labels := pointLabels json p
  value := (renderValue floats p.value).toList
  timestamp := some p.ts.timestampMillis

end Sample

variable {floats : Floats} {json : Json → String}

/-! ## Rendering writes a sample -/

theorem toList_pushEscaped (out : String) (c : Char) : (pushEscaped out c).toList = out.toList ++ escapeChar c := by
  unfold pushEscaped escapeChar
  split
  · simp
  · simp
  · simp
  · rename_i backslash quote feed
    rw [if_neg backslash, if_neg quote, if_neg feed, String.toList_push]

theorem toList_foldl_pushEscaped (value : List Char) (out : String) :
    (value.foldl pushEscaped out).toList = out.toList ++ escape value := by
  induction value generalizing out with
  | nil => simp [escape]
  | cons c value ih => simp [ih, toList_pushEscaped, escape]

theorem toList_writeLabel (out key value : String) (first : Bool) :
    (writeLabel out key value first).toList =
      out.toList ++ ((if first then [] else [',']) ++ labelText (key.toList, value.toList)) := by
  cases first <;> simp [writeLabel, toList_foldl_pushEscaped, labelText]

theorem toList_writeLabels (labels : Json) (out : String) :
    (writeLabels json out labels).toList =
      out.toList ++ (fieldLabels json labels).flatMap fun label => ',' :: labelText label := by
  cases labels with
  | object fields =>
      simp only [writeLabels, fieldLabels]
      induction fields generalizing out with
      | nil => simp
      | cons field fields ih =>
          rw [List.foldl_cons, ih, List.filterMap_cons]
          cases labelValue json field.2 with
          | none => rfl
          | some v => simp [toList_writeLabel]
  | null | bool | number | string | array => simp [writeLabels, fieldLabels]

variable (floats json) in
def lineOf (p : MetricPoint) : List Char :=
  sampleText (sanitizeMetricName p.name).toList (pointLabels json p) (renderValue floats p.value).toList
    p.ts.timestampMillis

theorem toList_renderPoint (p : MetricPoint) (out : String) :
    (renderPoint floats json p out).toList = out.toList ++ (lineOf floats json p ++ ['\n']) := by
  rw [lineOf, sampleText, pointLabels, intercalate_labels]
  simp [renderPoint, toList_writeLabel, toList_writeLabels, int64Text]

/-! ## A rendered sample is well formed -/

theorem word_sanitizeMetricName (s : String) : Word labelStart labelRest (sanitizeMetricName s).toList := by
  unfold sanitizeMetricName
  cases s.toList with
  | nil => exact ⟨'u', "nnamed".toList, by simp, rfl, by simp [labelRest]⟩
  | cons c cs =>
      simp only [List.mapIdx_cons]
      rw [if_neg (List.cons_ne_nil _ _), String.toList_ofList]
      refine ⟨_, _, rfl, ?_, ?_⟩
      · simp only [if_true]
        split_ifs with ok
        · simp only [Char.isAlphanum, Bool.and_eq_true, Bool.or_eq_true, Bool.not_eq_true'] at ok
          rcases ok with ⟨(alpha | digit) | underscore, not_digit⟩
          · simp [labelStart, alpha]
          · rw [digit] at not_digit
            cases not_digit
          · simp [labelStart, underscore]
        · decide
      · intro x member
        obtain ⟨i, bound, rfl⟩ := List.mem_mapIdx.mp member
        simp only [Nat.add_one_ne_zero, if_false]
        split_ifs with ok
        · exact ok
        · decide

theorem Word.metric {cs : List Char} (isWord : Word labelStart labelRest cs) : Word nameStart nameRest cs := by
  obtain ⟨c, more, rfl, first, all⟩ := isWord
  refine ⟨c, more, rfl, ?_, ?_⟩
  · simp [nameStart, first]
  · intro x member
    simp [nameRest, all x member]

theorem labelsFit_point (p : MetricPoint) : LabelsFit (pointLabels json p) := by
  have field (labels : Json) : LabelsFit (fieldLabels json labels) := by
    cases labels with
    | object fields =>
        intro label member
        obtain ⟨entry, -, kept⟩ := List.mem_filterMap.mp member
        obtain ⟨v, -, rfl⟩ := Option.map_eq_some_iff.mp kept
        exact word_sanitizeMetricName _
    | null | bool | number | string | array => exact nofun
  intro label member
  rcases List.mem_cons.mp member with rfl | later
  · exact ⟨'s', "ource".toList, by simp, rfl, by simp [labelRest]⟩
  · rcases List.mem_cons.mp later with rfl | own
    · exact ⟨'s', "ource_id".toList, by simp, rfl, by simp [labelRest]⟩
    · exact field p.labels label own

theorem renderValue_fits (decimals : ∀ q, IsDecimal (floats.display q).toList) (v : F64) :
    isFloat (renderValue floats v).toList = true ∧
      ∀ c ∈ (renderValue floats v).toList, isBlank c = false ∧ c ≠ '\n' := by
  cases v with
  | finite q =>
      refine ⟨(decimals q).isFloat, ?_⟩
      intro c member
      rcases (decimals q).mem member with rfl | rfl | digit
      · decide
      · decide
      · exact digit_sharp digit
  | infinite negative =>
      have plus : "+Inf".toList = ['+', 'I', 'n', 'f'] := by simp
      have minus : "-Inf".toList = ['-', 'I', 'n', 'f'] := by simp
      cases negative
      · rw [renderValue, if_neg Bool.false_ne_true, plus]
        exact ⟨rfl, by simp [isBlank]⟩
      · rw [renderValue, if_pos rfl, minus]
        exact ⟨rfl, by simp [isBlank]⟩
  | nan =>
      have text : "NaN".toList = ['N', 'a', 'N'] := by simp
      rw [renderValue, text]
      exact ⟨rfl, by simp [isBlank]⟩

theorem sampleFits_point (decimals : ∀ q, IsDecimal (floats.display q).toList) (p : MetricPoint) :
    SampleFits (sanitizeMetricName p.name).toList (pointLabels json p) (renderValue floats p.value).toList
      p.ts.timestampMillis where
  named := Word.metric (word_sanitizeMetricName p.name)
  labelled := labelsFit_point p
  nonempty := List.cons_ne_nil _ _
  isFloat := (renderValue_fits decimals p.value).1
  sharp := (renderValue_fits decimals p.value).2
  stamped := p.ts.inRange

/-! ## The body -/

def postedBody (pushed : Option IngestRequest × Except String Unit) : List Char :=
  ((pushed.1.map IngestRequest.body).getD "").toList

theorem body_lines (decimals : ∀ q, IsDecimal (floats.display q).toList) (points : List MetricPoint) (out : String) :
    ∃ text, (points.foldl (fun body p => renderPoint floats json p body) out).toList = out.toList ++ text ∧
      Exposition.lines text = some (points.map (lineOf floats json)) := by
  induction points generalizing out with
  | nil => exact ⟨[], by simp, rfl⟩
  | cons p points ih =>
      obtain ⟨text, rendered, split⟩ := ih (renderPoint floats json p out)
      have whole : '\n' ∉ lineOf floats json p := feed_not_mem_text (sampleFits_point decimals p)
      rw [toList_renderPoint] at rendered
      refine ⟨lineOf floats json p ++ '\n' :: text, ?_, ?_⟩
      · rw [List.foldl_cons, rendered]
        simp
      · rw [lines_cons whole, split]
        rfl

theorem postedBody_lines (decimals : ∀ q, IsDecimal (floats.display q).toList) (sink : VictoriaMetricsSink)
    (send : IngestRequest → Except String IngestResponse) (points : List MetricPoint) :
    Exposition.lines (postedBody (sink.pushBatch floats json send points)) = some (points.map (lineOf floats json)) := by
  by_cases none : points = []
  · subst none
    rfl
  · obtain ⟨text, rendered, split⟩ : ∃ text, (points.foldl (fun body p => renderPoint floats json p body) "").toList =
        "".toList ++ text ∧ Exposition.lines text = some (points.map (lineOf floats json)) :=
      body_lines decimals points ""
    rw [VictoriaMetricsSink.pushBatch, if_neg none]
    simpa [postedBody, rendered] using split

theorem parseLine_lineOf (decimals : ∀ q, IsDecimal (floats.display q).toList) (p : MetricPoint) :
    parseLine (lineOf floats json p) = some (sampleOf floats json p) :=
  parseLine_text (sampleFits_point decimals p)

theorem writeLabel_injective (out key : String) (first : Bool) :
    Function.Injective fun value => writeLabel out key value first := by
  intro value other same
  have texts := congrArg String.toList same
  simp only [toList_writeLabel, labelText, List.append_cancel_left_eq, List.cons.injEq, true_and,
    List.append_cancel_right_eq] at texts
  exact String.toList_injective (escape_injective texts)

/-- For any points the body has one line for each of them, and a line reads as the sample of its point: the sanitised
name, the labels in order with the values that they had, the value and the milliseconds. So bodies that are the same
stand for the same samples, and a label shows which value it was written from. -/
theorem exposition_unambiguous (floats : Floats) (json : Json → String) (sink : VictoriaMetricsSink)
    (send : IngestRequest → Except String IngestResponse) (decimals : ∀ q, IsDecimal (floats.display q).toList) :
    (∀ points, ∃ lines, Exposition.lines (postedBody (sink.pushBatch floats json send points)) = some lines ∧
      List.Forall₂ (fun line p => parseLine line = some (sampleOf floats json p)) lines points) ∧
    (∀ points others, postedBody (sink.pushBatch floats json send points) =
      postedBody (sink.pushBatch floats json send others) →
        points.map (sampleOf floats json) = others.map (sampleOf floats json)) ∧
    ∀ out key first, Function.Injective fun value => writeLabel out key value first := by
  refine ⟨?_, ?_, writeLabel_injective⟩
  · intro points
    refine ⟨points.map (lineOf floats json), postedBody_lines decimals sink send points, ?_⟩
    rw [List.forall₂_map_left_iff, List.forall₂_same]
    exact fun p _ => parseLine_lineOf decimals p
  · intro points others same
    have parsed (points : List MetricPoint) :
        (points.map (lineOf floats json)).map parseLine = (points.map (sampleOf floats json)).map some := by
      rw [List.map_map, List.map_map]
      exact List.map_congr_left fun p _ => parseLine_lineOf decimals p
    have split : some (points.map (lineOf floats json)) = some (others.map (lineOf floats json)) := by
      rw [← postedBody_lines decimals sink send points, same, postedBody_lines decimals sink send others]
    have samples := parsed points
    rw [Option.some.inj split, parsed others] at samples
    exact (List.map_injective_iff.mpr (fun _ _ => Option.some.inj) samples).symm

/-! ## A forged label -/

def wholeDisplay : Floats := ⟨fun n => n, fun q => String.ofList (int64Text q.num)⟩

/-- A device calls itself by a text that would close the label and the line. -/
def forged : MetricPoint where
  ts := ⟨1700000000000000000, by decide⟩
  source := "pve"
  sourceId := "a\"\x7d 1 1\nup\x7bsource=\"b\\"
  name := "pve.node.cpu_pct"
  value := .finite 42
  labels := .object [("node", .string "pve-01"), ("vmid", .null)]

theorem forged_read : ∃ lines,
    Exposition.lines (postedBody ((VictoriaMetricsSink.new "http://x/").pushBatch wholeDisplay (fun _ => "")
      (fun _ => .ok ⟨204, none⟩) [forged, forged])) = some lines ∧
    List.Forall₂ (fun line p => parseLine line = some (sampleOf wholeDisplay (fun _ => "") p)) lines
      [forged, forged] := by
  refine (exposition_unambiguous wholeDisplay (fun _ => "") _ _ ?_).1 [forged, forged]
  intro q
  rw [wholeDisplay, String.toList_ofList]
  exact isDecimal_int64Text q.num

end Daimon.Proof.Observer
