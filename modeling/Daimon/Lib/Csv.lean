import Mathlib.Data.List.TakeWhile

/-!
# Comma separated values

The reader of RFC 4180: a field without quotes holds no comma, quote, carriage return or line feed, a field in quotes
has its quotes doubled, and the line break of the last record may be missing. A line break is CRLF or a lone LF.
-/

namespace Daimon.Lib.Csv

/-- Where the reader stands: before a field, in one without quotes, in one in quotes, behind a quote of such a one,
behind a carriage return. -/
inductive Place where
  | start
  | bare
  | quoted
  | closed
  | returned
  deriving DecidableEq, Repr

/-- What stands behind a place: the rest of its field, the other fields of its record, the other records. -/
structure Tail where
  field : List Char
  fields : List (List Char)
  records : List (List (List Char))
  deriving DecidableEq, Repr

namespace Tail

def nothing : Tail := ⟨[], [], []⟩

/-- The record that begins at a place before a field, with the records behind it. -/
def all (t : Tail) : List (List (List Char)) := (t.field :: t.fields) :: t.records

def write (front : List Char) (t : Tail) : Tail := { t with field := front ++ t.field }

def comma (t : Tail) : Tail := ⟨[], t.field :: t.fields, t.records⟩

def lineBreak (t : Tail) : Tail := ⟨[], [], t.all⟩

@[simp] theorem write_empty : write [] = id := rfl

@[simp] theorem write_field (front : List Char) (t : Tail) : (t.write front).field = front ++ t.field := rfl

@[simp] theorem write_fields (front : List Char) (t : Tail) : (t.write front).fields = t.fields := rfl

@[simp] theorem write_records (front : List Char) (t : Tail) : (t.write front).records = t.records := rfl

@[simp] theorem write_comp (front more : List Char) : write front ∘ write more = write (front ++ more) := by
  funext t
  simp [write]

end Tail

def read : Place → List Char → Option Tail
  | place, [] => if place = .quoted ∨ place = .returned then none else some .nothing
  | place, c :: rest =>
      if place = .quoted then
        if c = '"' then read .closed rest else (read .quoted rest).map (Tail.write [c])
      else if c = '\n' then
        if rest = [] then some .nothing else (read .start rest).map Tail.lineBreak
      else if place = .returned then none
      else if c = ',' then (read .start rest).map Tail.comma
      else if c = '\r' then read .returned rest
      else if c = '"' then
        if place = .start then read .quoted rest
        else if place = .closed then (read .quoted rest).map (Tail.write ['"'])
        else none
      else if place = .closed then none
      else (read .bare rest).map (Tail.write [c])

example : read .start ['a', ',', 'b'] = some ⟨['a'], [['b']], []⟩ := by
  simp [read, Tail.nothing, Tail.comma, Tail.write]

def parse (text : List Char) : Option (List (List (List Char))) :=
  if text = [] then some [] else (read .start text).map Tail.all

def parseText (text : String) : Option (List (List String)) :=
  (parse text.toList).map (·.map (·.map String.ofList))

theorem parseText_eq_some {text : String} {records : List (List String)} :
    parseText text = some records ↔ parse text.toList = some (records.map (·.map String.toList)) := by
  rw [parseText, Option.map_eq_some_iff]
  constructor
  · rintro ⟨read, parsed, rfl⟩
    simp [parsed, Function.comp_def]
  · intro parsed
    exact ⟨_, parsed, by simp [Function.comp_def]⟩

/-- TEXTDATA, of any script. -/
def isText (c : Char) : Bool := c ≠ ',' && c ≠ '"' && c ≠ '\r' && c ≠ '\n'

theorem isText_eq_true {c : Char} : isText c = true ↔ c ≠ ',' ∧ c ≠ '"' ∧ c ≠ '\r' ∧ c ≠ '\n' := by
  simp [isText, and_assoc]

/-! ## One field -/

section Field
variable {c : Char} {text value rest : List Char} {place : Place} {t : Tail}

/-- The characters that stand behind a field in a text of several lines. -/
def Ends (c : Char) : Prop := c = ',' ∨ c = '\n'

/-- What follows a field does not depend on how it is written. -/
theorem read_ends (ends : Ends c) (rest : List Char) (unquoted : place ≠ .quoted ∧ place ≠ .returned) :
    read place (c :: rest) = read .bare (c :: rest) := by
  rcases ends with rfl | rfl <;> simp [read, unquoted]

theorem read_comma (rest : List Char) : read .bare (',' :: rest) = (read .start rest).map Tail.comma := by
  simp [read]

theorem read_lineBreak (rest : List Char) :
    read .bare ('\n' :: rest) = (parse rest).map fun records => ⟨[], [], records⟩ := by
  by_cases last : rest = []
  · simp [read, parse, last, Tail.nothing]
  · simp only [read, parse, last, if_false, if_true, reduceCtorEq, Option.map_map]
    rfl

theorem read_text (isText : isText c = true) (unquoted : place = .start ∨ place = .bare) (rest : List Char) :
    read place (c :: rest) = (read .bare rest).map (Tail.write [c]) := by
  obtain ⟨comma, quote, return_, feed⟩ := (isText_eq_true).mp isText
  rcases unquoted with rfl | rfl <;> simp [read, comma, quote, return_, feed]

theorem read_bare_append (allText : ∀ c ∈ value, isText c = true) (rest : List Char) :
    read .bare (value ++ rest) = (read .bare rest).map (Tail.write value) := by
  induction value with
  | nil => rw [List.nil_append, Tail.write_empty, Option.map_id, id]
  | cons c value ih =>
      rw [List.cons_append, read_text (allText c List.mem_cons_self) (Or.inr rfl),
        ih fun d member => allText d (List.mem_cons_of_mem c member), Option.map_map, Tail.write_comp]
      rfl

theorem read_quoted_append (value rest : List Char) :
    read .quoted (value.flatMap (fun c => if c = '"' then ['"', '"'] else [c]) ++ '"' :: rest) =
      (read .closed rest).map (Tail.write value) := by
  induction value with
  | nil => simp [read]
  | cons c value ih =>
      rw [List.flatMap_cons, List.append_assoc]
      by_cases quote : c = '"'
      · simp [quote, read, ih, Option.map_map]
      · simp [quote, read, ih, Option.map_map]

/-- The text is a field of this value, whatever stands behind it. -/
def Reads (text value : List Char) : Prop :=
  ∀ c rest, Ends c → read .start (text ++ c :: rest) = (read .bare (c :: rest)).map (Tail.write value)

/-- The text is nowhere a field of this value. -/
def Misreads (text value : List Char) : Prop :=
  ∀ c rest t, Ends c → read .start (text ++ c :: rest) = some t → t.field ≠ value

theorem reads_bare (allText : ∀ c ∈ value, isText c = true) : Reads value value := by
  intro c rest ends
  cases value with
  | nil => simpa using read_ends ends rest (by simp)
  | cons d value =>
      rw [List.cons_append, read_text (allText d List.mem_cons_self) (Or.inl rfl),
        read_bare_append fun e member => allText e (List.mem_cons_of_mem d member), Option.map_map, Tail.write_comp]
      rfl

theorem reads_quoted (value : List Char) :
    Reads ('"' :: (value.flatMap (fun c => if c = '"' then ['"', '"'] else [c]) ++ ['"'])) value := by
  intro c rest ends
  have opens (more : List Char) : read .start ('"' :: more) = read .quoted more := by simp [read]
  rw [List.cons_append, opens, List.append_assoc, List.singleton_append, read_quoted_append,
    read_ends ends rest (by simp)]

/-! ## A text without quotes that is no field of its own value -/

def leadingQuotes (text : List Char) : Nat := (text.takeWhile (· = '"')).length

@[simp] theorem leadingQuotes_quote (rest : List Char) : leadingQuotes ('"' :: rest) = leadingQuotes rest + 1 := by
  simp [leadingQuotes]

theorem leadingQuotes_cons (other : c ≠ '"') (rest : List Char) : leadingQuotes (c :: rest) = 0 := by
  simp [leadingQuotes, other]

theorem leadingQuotes_append (other : c ≠ '"') (text rest : List Char) :
    leadingQuotes (text ++ c :: rest) = leadingQuotes text := by
  induction text with
  | nil => exact leadingQuotes_cons other rest
  | cons d text ih =>
      by_cases quote : d = '"'
      · rw [quote, List.cons_append, leadingQuotes_quote, leadingQuotes_quote, ih]
      · rw [List.cons_append, leadingQuotes_cons quote, leadingQuotes_cons quote]

theorem field_of_returned (found : read .returned rest = some t) : t.field = [] := by
  cases rest with
  | nil => simp [read] at found
  | cons c rest =>
      obtain rfl : c = '\n' := by
        by_contra other
        simp [read, other] at found
      by_cases last : rest = []
      · obtain rfl : Tail.nothing = t := by simpa [read, last] using found
        rfl
      · obtain ⟨later, -, rfl⟩ : ∃ later, read .start rest = some later ∧ later.lineBreak = t := by
          simpa [read, last] using found
        rfl

/-- What is not text ends the field or is refused. -/
theorem field_of_stop (stops : (place = .closed ∧ c ≠ '"') ∨ (place = .bare ∧ isText c = false))
    (found : read place (c :: rest) = some t) : t.field = [] := by
  have unquoted : place ≠ .quoted ∧ place ≠ .returned := by rcases stops with ⟨rfl, -⟩ | ⟨rfl, -⟩ <;> simp
  by_cases feed : c = '\n'
  · rw [feed, read_ends (Or.inr rfl) rest unquoted, read_lineBreak] at found
    obtain ⟨records, -, rfl⟩ := Option.map_eq_some_iff.mp found
    rfl
  by_cases comma : c = ','
  · rw [comma, read_ends (Or.inl rfl) rest unquoted, read_comma] at found
    obtain ⟨later, -, rfl⟩ := Option.map_eq_some_iff.mp found
    rfl
  by_cases return_ : c = '\r'
  · apply @field_of_returned rest
    rcases stops with ⟨rfl, -⟩ | ⟨rfl, -⟩ <;> simpa [read, return_] using found
  rcases stops with ⟨rfl, quote⟩ | ⟨rfl, other⟩
  · simp [read, feed, comma, return_, quote] at found
  · obtain rfl : c = '"' := by simpa [isText, feed, comma, return_] using other
    simp [read] at found

/-- Inside of quotes two quotes are read as one. -/
theorem leadingQuotes_read (rest : List Char) :
    (∀ t, read .quoted rest = some t → 2 * leadingQuotes t.field ≤ leadingQuotes rest) ∧
      ∀ t, read .closed rest = some t → 2 * leadingQuotes t.field ≤ leadingQuotes rest + 1 := by
  induction rest with
  | nil => simp [read, Tail.nothing, leadingQuotes]
  | cons c rest ih =>
      constructor
      · intro t found
        by_cases quote : c = '"'
        · subst quote
          rw [leadingQuotes_quote]
          exact ih.2 t (by simpa [read] using found)
        · obtain ⟨later, -, rfl⟩ : ∃ later, read .quoted rest = some later ∧ later.write [c] = t := by
            simpa [read, quote] using found
          rw [Tail.write_field, List.singleton_append, leadingQuotes_cons quote, leadingQuotes_cons quote]
      · intro t found
        by_cases quote : c = '"'
        · subst quote
          obtain ⟨later, found', rfl⟩ : ∃ later, read .quoted rest = some later ∧ later.write ['"'] = t := by
            simpa [read] using found
          have fewer := ih.1 later found'
          rw [Tail.write_field, List.singleton_append, leadingQuotes_quote, leadingQuotes_quote]
          omega
        · rw [field_of_stop (Or.inl ⟨rfl, quote⟩) found]
          exact Nat.zero_le _

theorem field_shorter (other : ∃ c ∈ value, isText c = false) (found : read .bare (value ++ rest) = some t) :
    t.field.length < value.length := by
  induction value generalizing t with
  | nil => simp at other
  | cons c value ih =>
      rw [List.cons_append] at found
      cases text : isText c with
      | false =>
          rw [field_of_stop (Or.inr ⟨rfl, text⟩) found]
          exact Nat.succ_pos value.length
      | true =>
          rw [read_text text (Or.inr rfl)] at found
          obtain ⟨later, found', rfl⟩ := Option.map_eq_some_iff.mp found
          have shorter := ih (by simpa [text] using other) found'
          simpa using shorter

theorem misreads_bare (other : ∃ c ∈ value, isText c = false) : Misreads value value := by
  intro c rest t ends found same
  cases value with
  | nil => simp at other
  | cons d value =>
      rw [List.cons_append] at found
      by_cases quote : d = '"'
      · have fewer := (leadingQuotes_read (value ++ c :: rest)).1 t (by simpa [read, quote] using found)
        rw [leadingQuotes_append (by rcases ends with rfl | rfl <;> simp), same, quote, leadingQuotes_quote] at fewer
        omega
      · have bare : read .bare (d :: value ++ c :: rest) = some t := by simpa [read, quote] using found
        have shorter := field_shorter other bare
        rw [same] at shorter
        exact lt_irrefl _ shorter

end Field

/-! ## Lines -/

/-- How a value is written: the text reads as the value where `fits` holds, and never does elsewhere. -/
structure Written (text value : List Char) (fits : Prop) : Prop where
  reads : fits → Reads text value
  misreads : ¬fits → Misreads text value

theorem written_bare (value : List Char) : Written value value (∀ c ∈ value, isText c = true) where
  reads := reads_bare
  misreads other := misreads_bare (by simpa using other)

section Lines
variable {ι : Type*} {text value : ι → List Char} {fits : ι → Prop} {rest : List Char}
  {records : List (List (List Char))}

theorem read_field_iff {text value : List Char} {values : List (List Char)} {fits : Prop} {c : Char}
    (written : Written text value fits) (ends : Ends c) :
    (read .start (text ++ c :: rest)).map Tail.all = some ((value :: values) :: records) ↔
      fits ∧ read .bare (c :: rest) = some ⟨[], values, records⟩ := by
  by_cases fit : fits
  · rw [written.reads fit c rest ends, Option.map_map]
    cases found : read .bare (c :: rest) with
    | none => simp
    | some t =>
        have stop : isText c = false := by rcases ends with rfl | rfl <;> rfl
        have nothing := field_of_stop (Or.inr ⟨rfl, stop⟩) found
        obtain ⟨field, fields, later⟩ := t
        subst nothing
        simp [fit, Tail.all]
  · apply iff_of_false
    · intro whole
      obtain ⟨t, found, all⟩ := Option.map_eq_some_iff.mp whole
      have same : t.field = value := by
        simp only [Tail.all, List.cons.injEq] at all
        exact all.1.1
      exact written.misreads fit c rest t ends found same
    · exact fun both => fit both.1

theorem read_line_iff (written : ∀ i, Written (text i) (value i) (fits i)) (i : ι) (more : List ι) :
    (read .start ([','].intercalate ((i :: more).map text) ++ '\n' :: rest)).map Tail.all =
        some ((i :: more).map value :: records) ↔
      (∀ j ∈ i :: more, fits j) ∧ parse rest = some records := by
  induction more generalizing i with
  | nil =>
      have behind : read .bare ('\n' :: rest) = some ⟨[], [], records⟩ ↔ parse rest = some records := by
        rw [read_lineBreak]
        simp
      rw [List.map_singleton, List.map_singleton, List.intercalate_singleton,
        read_field_iff (written i) (Or.inr rfl), behind]
      simp
  | cons next more ih =>
      have behind (later : List Char) : read .bare (',' :: later) = some ⟨[], (next :: more).map value, records⟩ ↔
          (read .start later).map Tail.all = some ((next :: more).map value :: records) := by
        rw [read_comma]
        simp [Tail.comma, Tail.all]
      rw [List.map_cons, List.map_cons, List.map_cons, List.intercalate_cons_cons, ← List.map_cons, List.append_assoc,
        List.append_assoc, List.singleton_append, read_field_iff (written i) (Or.inl rfl), behind, ih, ← and_assoc,
        ← List.forall_mem_cons]

/-- A line reads as the record of its values where all its fields fit. No line reads as a record without fields. -/
theorem parse_line_iff (written : ∀ i, Written (text i) (value i) (fits i)) (items : List ι) :
    parse ([','].intercalate (items.map text) ++ '\n' :: rest) = some (items.map value :: records) ↔
      items ≠ [] ∧ (∀ i ∈ items, fits i) ∧ parse rest = some records := by
  have some_text : [','].intercalate (items.map text) ++ '\n' :: rest ≠ [] := by simp
  rw [parse, if_neg some_text]
  cases items with
  | nil => simp [Tail.all]
  | cons i more =>
      rw [read_line_iff written i more]
      simp

end Lines

end Daimon.Lib.Csv
