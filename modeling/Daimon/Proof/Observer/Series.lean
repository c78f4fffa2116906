import Daimon.Proof.Observer.VmSink
import Mathlib.Data.Finset.Dedup

/-!
# The series of a point

A series is a name with a set of labels, as it stands in the rendered line. Label keys are sanitised one by one, so two
of them can become one label name, and one of them can become `source` or `source_id`.
-/

namespace Daimon.Proof.Observer
open Daimon.Observer Lib Exposition

section Keys
variable (json : Json → String)

/-- The label keys that are rendered, with the texts of their values. -/
def keyTexts : Json → List (String × String)
  | .object fields => fields.filterMap fun field => (labelValue json field.2).map fun v => (field.1, v)
  | _ => []

def keyLabel (entry : String × String) : List Char × List Char := ((sanitizeLabelName entry.1).toList, entry.2.toList)

theorem fieldLabels_eq (labels : Json) : fieldLabels json labels = (keyTexts json labels).map keyLabel := by
  cases labels with
  | object fields =>
      rw [fieldLabels, keyTexts, List.map_filterMap]
      congr 1
      funext field
      cases labelValue json field.2 <;> rfl
  | null | bool | number | string | array => rfl

def labelNames (p : MetricPoint) : List String :=
  "source" :: "source_id" :: (keyTexts json p.labels).map fun entry => sanitizeLabelName entry.1

/-- No two of the rendered keys become one label name, and none becomes a built-in one. -/
def KeysApart (p : MetricPoint) : Prop := (labelNames json p).Nodup

/-- The points differ in nothing but how the keys of their labels are spelt, in keys that are not rendered, and in
values of one text. -/
structure SpeltAlike (p q : MetricPoint) : Prop where
  name : sanitizeMetricName p.name = sanitizeMetricName q.name
  source : p.source = q.source
  sourceId : p.sourceId = q.sourceId
  left : ∀ entry ∈ keyTexts json p.labels, ∃ other ∈ keyTexts json q.labels, keyLabel other = keyLabel entry
  right : ∀ entry ∈ keyTexts json q.labels, ∃ other ∈ keyTexts json p.labels, keyLabel other = keyLabel entry

end Keys

/-! ## Reading the series of a line -/

section Rendered
variable (floats : Floats) (json : Json → String)

def renderedLine (p : MetricPoint) : List Char := (renderPoint floats json p "").toList

/-- No label name stands twice in the line. -/
def NamesOnce (line : List Char) : Prop :=
  ∃ name labels, readSeries line = some (name, labels) ∧ (labels.map Prod.fst).Nodup

def series (line : List Char) : Option (List Char × Finset (List Char × List Char)) :=
  (readSeries line).map fun (name, labels) => (name, labels.toFinset)

def Differ (p q : MetricPoint) : Prop :=
  p.source ≠ q.source ∨ p.sourceId ≠ q.sourceId ∨ ∃ key, p.labels.get? key ≠ q.labels.get? key

/-- What is asked of any two points. -/
structure DistinctSeries (p q : MetricPoint) : Prop where
  once : NamesOnce (renderedLine floats json p)
  other : NamesOnce (renderedLine floats json q)
  apart : Differ p q → series (renderedLine floats json p) ≠ series (renderedLine floats json q)

end Rendered

variable {floats : Floats} {json : Json → String} {p q : MetricPoint}

theorem readSeries_rendered (p : MetricPoint) :
    readSeries (renderedLine floats json p) = some ((sanitizeMetricName p.name).toList, pointLabels json p) := by
  rw [renderedLine, toList_renderPoint, lineOf, sampleText]
  simp only [String.toList_empty, List.nil_append, List.append_assoc, List.cons_append]
  exact readSeries_text (Word.metric (word_sanitizeMetricName p.name)) (labelsFit_point p) (List.cons_ne_nil _ _) _

theorem names_pointLabels (p : MetricPoint) : (pointLabels json p).map Prod.fst = (labelNames json p).map String.toList := by
  rw [pointLabels, fieldLabels_eq, labelNames]
  simp only [List.map_cons, List.map_map]
  rfl

theorem namesOnce_iff : NamesOnce (renderedLine floats json p) ↔ KeysApart json p := by
  have injective : ((labelNames json p).map String.toList).Nodup ↔ (labelNames json p).Nodup :=
    List.nodup_map_iff fun _ _ same => String.toList_injective same
  rw [KeysApart, ← injective, ← names_pointLabels]
  constructor
  · rintro ⟨name, labels, read, once⟩
    rw [readSeries_rendered] at read
    cases read
    exact once
  · intro once
    exact ⟨_, _, readSeries_rendered p, once⟩

theorem series_rendered (p : MetricPoint) : series (renderedLine floats json p) =
    some ((sanitizeMetricName p.name).toList, (pointLabels json p).toFinset) := by
  rw [series, readSeries_rendered]
  rfl

theorem mem_pointLabels {label : List Char × List Char} : label ∈ pointLabels json p ↔
    label = ("source".toList, p.source.toList) ∨ label = ("source_id".toList, p.sourceId.toList) ∨
      ∃ entry ∈ keyTexts json p.labels, keyLabel entry = label := by
  rw [pointLabels, fieldLabels_eq]
  simp only [List.mem_cons, List.mem_map]

theorem source_ne_source_id : "source".toList ≠ "source_id".toList := fun same =>
  absurd (String.toList_injective same) (by decide)

/-- A rendered key is no built-in label. -/
theorem KeysApart.plain (apart : KeysApart json p) {entry : String × String} (member : entry ∈ keyTexts json p.labels) :
    (keyLabel entry).1 ≠ "source".toList ∧ (keyLabel entry).1 ≠ "source_id".toList := by
  rw [KeysApart, labelNames, List.nodup_cons, List.nodup_cons] at apart
  have named : sanitizeLabelName entry.1 ∈ (keyTexts json p.labels).map fun entry => sanitizeLabelName entry.1 :=
    List.mem_map_of_mem member
  constructor
  · intro same
    apply apart.1
    rw [← String.toList_injective same]
    exact List.mem_cons_of_mem _ named
  · intro same
    apply apart.2.1
    rw [← String.toList_injective same]
    exact named

theorem spelt_of_mem (apart : KeysApart json p)
    (inside : ∀ label ∈ pointLabels json p, label ∈ pointLabels json q) {entry : String × String}
    (member : entry ∈ keyTexts json p.labels) : ∃ other ∈ keyTexts json q.labels, keyLabel other = keyLabel entry := by
  have plain := apart.plain member
  rcases (mem_pointLabels).mp (inside _ ((mem_pointLabels).mpr (Or.inr (Or.inr ⟨entry, member, rfl⟩)))) with
    source | source_id | found
  · exact absurd (congrArg Prod.fst source) plain.1
  · exact absurd (congrArg Prod.fst source_id) plain.2
  · exact found

theorem series_eq_iff (apart : KeysApart json p) (other : KeysApart json q) :
    series (renderedLine floats json p) = series (renderedLine floats json q) ↔ SpeltAlike json p q := by
  rw [series_rendered, series_rendered, Option.some.injEq, Prod.mk.injEq, Finset.ext_iff]
  simp only [List.mem_toFinset]
  constructor
  · rintro ⟨name, labels⟩
    refine ⟨String.toList_injective name, ?_, ?_, ?_, ?_⟩
    · rcases (mem_pointLabels).mp ((labels _).mp ((mem_pointLabels).mpr (Or.inl rfl))) with
        same | same | ⟨entry, member, same⟩
      · exact String.toList_injective (congrArg Prod.snd same)
      · exact absurd (congrArg Prod.fst same) source_ne_source_id
      · exact absurd (congrArg Prod.fst same) (other.plain member).1
    · rcases (mem_pointLabels).mp ((labels _).mp ((mem_pointLabels).mpr (Or.inr (Or.inl rfl)))) with
        same | same | ⟨entry, member, same⟩
      · exact absurd (congrArg Prod.fst same).symm source_ne_source_id
      · exact String.toList_injective (congrArg Prod.snd same)
      · exact absurd (congrArg Prod.fst same) (other.plain member).2
    · intro entry member
      exact spelt_of_mem apart (fun label => (labels label).mp) member
    · intro entry member
      exact spelt_of_mem other (fun label => (labels label).mpr) member
  · intro alike
    refine ⟨congrArg String.toList alike.name, ?_⟩
    intro label
    rw [mem_pointLabels, mem_pointLabels, alike.source, alike.sourceId]
    constructor
    · rintro (source | source_id | ⟨entry, member, rfl⟩)
      · exact Or.inl source
      · exact Or.inr (Or.inl source_id)
      · exact Or.inr (Or.inr (alike.left entry member))
    · rintro (source | source_id | ⟨entry, member, rfl⟩)
      · exact Or.inl source
      · exact Or.inr (Or.inl source_id)
      · exact Or.inr (Or.inr (alike.right entry member))

/-- The rendered keys of both points stay apart, and the points are not spelt alike while their labels differ. -/
def ToldApart (json : Json → String) (p q : MetricPoint) : Prop :=
  KeysApart json p ∧ KeysApart json q ∧ (SpeltAlike json p q → ∀ key, p.labels.get? key = q.labels.get? key)

def interfacePoint (labels : List (String × Json)) : MetricPoint where
  ts := ⟨1700000060000000000, by decide⟩
  source := "routeros"
  sourceId := "edge"
  name := "net.rx_bytes"
  value := .finite 2
  labels := .object labels

def dotted : MetricPoint := interfacePoint [("net.if", .string "eth0")]

def underscored : MetricPoint := interfacePoint [("net_if", .string "eth0")]

/-- A label of a device that is called as the sink's own. -/
def resourced : MetricPoint := interfacePoint [("source", .string "dhcp")]

theorem sanitized_names : sanitizeLabelName "source" = "source" ∧ sanitizeLabelName "net.if" = "net_if" ∧
    sanitizeLabelName "net_if" = "net_if" := ⟨rfl, rfl, rfl⟩

end Daimon.Proof.Observer
