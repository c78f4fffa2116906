import Mathlib.Data.List.Basic
import Mathlib.Data.List.TakeWhile

/-!
# The Prometheus text format

A sample line, read as the format prescribes: blanks and tabs may stand between tokens, a label value ends at the first
quote that no backslash escapes, a value is a float and a timestamp an integer of 64 bits. Written in the plain way, a
sample is read back as it was.
-/

namespace Daimon.Lib.Exposition

/-! ## Tokens -/

def isBlank (c : Char) : Bool := c == ' ' || c == '\t'

def skipBlanks (cs : List Char) : List Char := cs.dropWhile isBlank

/-- The next token up to a blank. -/
def field (cs : List Char) : List Char × List Char :=
  ((skipBlanks cs).takeWhile fun c => !isBlank c, (skipBlanks cs).dropWhile fun c => !isBlank c)

def symbol (c : Char) (cs : List Char) : Option (List Char) :=
  match skipBlanks cs with
  | x :: rest => if x = c then some rest else none
  | [] => none

def labelStart (c : Char) : Bool := c.isAlpha || c == '_'

def labelRest (c : Char) : Bool := c.isAlphanum || c == '_'

def nameStart (c : Char) : Bool := labelStart c || c == ':'

def nameRest (c : Char) : Bool := labelRest c || c == ':'

def word (start rest : Char → Bool) (cs : List Char) : Option (List Char × List Char) :=
  match skipBlanks cs with
  | c :: cs => if start c then some (c :: cs.takeWhile rest, cs.dropWhile rest) else none
  | [] => none

/-! ## Label values -/

def escapeChar (c : Char) : List Char :=
  if c = '\\' then ['\\', '\\'] else if c = '"' then ['\\', '"'] else if c = '\n' then ['\\', 'n'] else [c]

def escape (cs : List Char) : List Char := cs.flatMap escapeChar

def unescapeChar (c : Char) : Option Char :=
  if c = '\\' then some '\\' else if c = '"' then some '"' else if c = 'n' then some '\n' else none

/-- What stands before the closing quote, with its escapes undone. The flag tells that a backslash has just been read. -/
def quoted : Bool → List Char → Option (List Char × List Char)
  | _, [] => none
  | true, c :: cs => do
      let x ← unescapeChar c
      let (value, rest) ← quoted false cs
      return (x :: value, rest)
  | false, c :: cs =>
      if c = '"' then some ([], cs)
      else if c = '\\' then quoted true cs
      else (quoted false cs).map fun (value, rest) => (c :: value, rest)

/-! ## Numbers -/

def digits (cs : List Char) : Bool := !cs.isEmpty && cs.all Char.isDigit

def unsigned : List Char → List Char
  | '-' :: cs => cs
  | '+' :: cs => cs
  | cs => cs

def isNumber (cs : List Char) : Bool :=
  let rest := cs.dropWhile Char.isDigit
  let fraction := if rest.head? = some '.' then rest.tail.takeWhile Char.isDigit else []
  let rest := if rest.head? = some '.' then rest.tail.dropWhile Char.isDigit else rest
  digits (cs.takeWhile Char.isDigit ++ fraction) &&
    match rest with
    | [] => true
    | e :: power => (e == 'e' || e == 'E') && digits (unsigned power)

/-- The decimal forms of Go's `ParseFloat`. -/
def isFloat (cs : List Char) : Bool :=
  let lower := cs.map Char.toLower
  lower = ['n', 'a', 'n'] || unsigned lower = ['i', 'n', 'f'] ||
    unsigned lower = ['i', 'n', 'f', 'i', 'n', 'i', 't', 'y'] || isNumber (unsigned cs)

def natural (cs : List Char) : Option Nat := if digits cs then some (Nat.ofDigitChars 10 cs 0) else none

def FitsInt64 (n : Int) : Prop := -0x8000000000000000 ≤ n ∧ n < 0x8000000000000000

instance (n : Int) : Decidable (FitsInt64 n) := inferInstanceAs (Decidable (_ ∧ _))

def integer : List Char → Option Int
  | '-' :: cs => (natural cs).map fun n => -Int.ofNat n
  | '+' :: cs => (natural cs).map Int.ofNat
  | cs => (natural cs).map Int.ofNat

def int64 (cs : List Char) : Option Int := (integer cs).filter fun n => FitsInt64 n

/-! ## Lines -/

structure Sample where
  name : List Char
  labels : List (List Char × List Char)
  value : List Char
  timestamp : Option Int
  deriving DecidableEq

/-- The labels up to the closing brace; the comma after the last one may stand or not. -/
def labels : Nat → List Char → Option (List (List Char × List Char) × List Char)
  | 0, _ => none
  | fuel + 1, cs =>
      match symbol '}' cs with
      | some rest => some ([], rest)
      | none => do
          let (name, rest) ← word labelStart labelRest cs
          let rest ← symbol '=' rest
          let rest ← symbol '"' rest
          let (value, rest) ← quoted false rest
          let (more, rest) ← match symbol ',' rest with
            | some rest => labels fuel rest
            | none => (symbol '}' rest).map fun rest => ([], rest)
          return ((name, value) :: more, rest)

def parseLine (line : List Char) : Option Sample := do
  let (name, rest) ← word nameStart nameRest line
  let (labels, rest) ← match symbol '{' rest with
    | some rest => labels (rest.length + 1) rest
    | none => some ([], rest)
  let (value, rest) := field rest
  if isFloat value then
    match field rest with
    | ([], _) => return { name, labels, value, timestamp := none }
    | (stamp, rest) =>
        let timestamp ← int64 stamp
        if skipBlanks rest = [] then return { name, labels, value, timestamp := some timestamp } else none
  else none

/-- The part of a line that tells which series it belongs to: the name and the labels. -/
def readSeries (line : List Char) : Option (List Char × List (List Char × List Char)) := do
  let (name, rest) ← word nameStart nameRest line
  let rest ← symbol '{' rest
  let (labels, _) ← labels (rest.length + 1) rest
  return (name, labels)

/-- The lines of a text whose last line ends with a line feed, as it must. -/
def lines (text : List Char) : Option (List (List Char)) :=
  let pieces := text.splitOn '\n'
  if pieces.getLast? = some [] then some pieces.dropLast else none

/-! ## Writing a sample -/

def int64Text (n : Int) : List Char := (toString n).toList

def labelText (label : List Char × List Char) : List Char := label.1 ++ '=' :: '"' :: (escape label.2 ++ ['"'])

/-- The text of a sample with at least one label and a timestamp. -/
def sampleText (name : List Char) (labels : List (List Char × List Char)) (value : List Char) (timestamp : Int) :
    List Char :=
  name ++ '{' :: ([','].intercalate (labels.map labelText) ++ '}' :: ' ' :: (value ++ ' ' :: int64Text timestamp))

def Word (start rest : Char → Bool) (cs : List Char) : Prop :=
  ∃ c more, cs = c :: more ∧ start c = true ∧ ∀ x ∈ more, rest x = true

/-! ## Reading it back -/

section Tokens
variable {c : Char} {cs rest : List Char}

theorem skipBlanks_of_head (sharp : isBlank c = false) : skipBlanks (c :: cs) = c :: cs := by
  rw [skipBlanks, List.dropWhile_cons, if_neg (by simp [sharp])]

theorem symbol_self (sharp : isBlank c = false) : symbol c (c :: cs) = some cs := by
  rw [symbol, skipBlanks_of_head sharp]
  exact if_pos rfl

theorem symbol_other {d : Char} (sharp : isBlank d = false) (other : d ≠ c) : symbol c (d :: cs) = none := by
  rw [symbol, skipBlanks_of_head sharp]
  exact if_neg other

theorem field_blank (cs : List Char) : field (' ' :: cs) = field cs := rfl

theorem field_append (nonempty : cs ≠ []) (sharp : ∀ x ∈ cs, isBlank x = false)
    (ends : ∀ x ∈ rest.head?, isBlank x = true) :
    field (cs ++ rest) = (cs, rest) := by
  obtain ⟨c, more, rfl⟩ := List.exists_cons_of_ne_nil nonempty
  have all : ∀ x ∈ c :: more, (!isBlank x) = true := fun x member => by simp [sharp x member]
  have start : skipBlanks (c :: more ++ rest) = c :: more ++ rest := skipBlanks_of_head (sharp c List.mem_cons_self)
  rw [field, start, List.takeWhile_append_of_pos all, List.dropWhile_append_of_pos all]
  cases rest with
  | nil => simp
  | cons x rest => simp [ends x rfl]

theorem word_append {start tail : Char → Bool} (isWord : Word start tail cs)
    (sharp : ∀ x, start x = true → isBlank x = false)
    (ends : ∀ x ∈ rest.head?, tail x = false) : word start tail (cs ++ rest) = some (cs, rest) := by
  obtain ⟨c, more, rfl, first, all⟩ := isWord
  rw [List.cons_append, word, skipBlanks_of_head (sharp c first)]
  simp only [first, if_true]
  rw [List.takeWhile_append_of_pos all, List.dropWhile_append_of_pos all]
  cases rest with
  | nil => simp
  | cons x rest => simp [ends x rfl]

end Tokens

section Values

theorem quoted_escapeChar (c : Char) (cs : List Char) :
    quoted false (escapeChar c ++ cs) = (quoted false cs).map fun (value, rest) => (c :: value, rest) := by
  have escaped (e : Char) (meant : unescapeChar e = some c) :
      quoted false ('\\' :: e :: cs) = (quoted false cs).map fun (value, rest) => (c :: value, rest) := by
    simp only [quoted, meant]
    cases quoted false cs <;> rfl
  unfold escapeChar
  split_ifs with backslash quote feed
  · exact escaped '\\' (by rw [backslash]; rfl)
  · exact escaped '"' (by rw [quote]; rfl)
  · exact escaped 'n' (by rw [feed]; rfl)
  · rw [List.singleton_append, quoted, if_neg quote, if_neg backslash]

theorem quoted_escape (value rest : List Char) : quoted false (escape value ++ '"' :: rest) = some (value, rest) := by
  induction value with
  | nil => rfl
  | cons c value ih =>
      rw [escape, List.flatMap_cons, List.append_assoc, quoted_escapeChar]
      rw [escape] at ih
      rw [ih]
      rfl

theorem escape_injective : Function.Injective escape := by
  intro value other same
  have read := quoted_escape value []
  rw [same, quoted_escape] at read
  exact (Prod.mk.inj (Option.some.inj read)).1.symm

theorem feed_not_mem_escape (value : List Char) : '\n' ∉ escape value := by
  intro member
  obtain ⟨c, -, inside⟩ := List.mem_flatMap.mp member
  unfold escapeChar at inside
  split_ifs at inside with backslash quote feed
  · simp at inside
  · simp at inside
  · simp at inside
  · exact feed (List.mem_singleton.mp inside).symm

end Values

section Numbers

theorem digits_iff {cs : List Char} : digits cs = true ↔ cs ≠ [] ∧ ∀ c ∈ cs, c.isDigit = true := by
  simp [digits]

theorem digit_sharp {c : Char} (digit : c.isDigit = true) : isBlank c = false ∧ c ≠ '\n' := by
  constructor
  · by_contra blank
    simp only [isBlank, Bool.not_eq_false, Bool.or_eq_true, beq_iff_eq] at blank
    rcases blank with rfl | rfl <;> cases digit
  · rintro rfl
    cases digit

theorem unsigned_digit {c : Char} (digit : c.isDigit = true) (cs : List Char) : unsigned (c :: cs) = c :: cs := by
  unfold unsigned
  split
  · rename_i same
    cases (List.cons.inj same).1
    cases digit
  · rename_i same
    cases (List.cons.inj same).1
    cases digit
  · rfl

theorem digits_toDigits (n : Nat) : digits (Nat.toDigits 10 n) = true :=
  (digits_iff).mpr ⟨Nat.toDigits_ne_nil, fun _ member => Nat.isDigit_of_mem_toDigits (by decide) (by decide) member⟩

theorem natural_toDigits (n : Nat) : natural (Nat.toDigits 10 n) = some n := by
  rw [natural, if_pos (digits_toDigits n), Nat.ofDigitChars_ten_toDigits]

theorem int64Text_ofNat (n : Nat) : int64Text n = Nat.toDigits 10 n := by
  rw [int64Text, show toString (n : Int) = toString n from rfl, Nat.toString_eq_ofList_toDigits, String.toList_ofList]

theorem int64Text_negSucc (n : Nat) : int64Text (Int.negSucc n) = '-' :: Nat.toDigits 10 (n + 1) := by
  rw [int64Text, show toString (Int.negSucc n) = "-" ++ toString (n + 1) from rfl, String.toList_append,
    Nat.toString_eq_ofList_toDigits, String.toList_ofList]
  rw [String.toList_ofList]
  rfl

theorem integer_text (n : Int) : integer (int64Text n) = some n := by
  cases n with
  | ofNat n =>
      have digit := ((digits_iff).mp (digits_toDigits n)).2
      obtain ⟨c, cs, text⟩ := List.exists_cons_of_ne_nil (Nat.toDigits_ne_nil (n := n) (b := 10))
      have first : c.isDigit = true := digit c (text ▸ List.mem_cons_self)
      have read : integer (c :: cs) = (natural (c :: cs)).map Int.ofNat := by
        unfold integer
        split
        · rename_i same
          cases (List.cons.inj same).1
          cases first
        · rename_i same
          cases (List.cons.inj same).1
          cases first
        · rfl
      rw [Int.ofNat_eq_natCast, int64Text_ofNat, text, read, ← text, natural_toDigits]
      rfl
  | negSucc n =>
      rw [int64Text_negSucc, integer, natural_toDigits]
      rfl

theorem int64_text {n : Int} (fits : FitsInt64 n) : int64 (int64Text n) = some n := by
  rw [int64, integer_text, Option.filter_some, if_pos (decide_eq_true fits)]

theorem mem_int64Text {n : Int} {c : Char} (member : c ∈ int64Text n) : c = '-' ∨ c.isDigit = true := by
  cases n with
  | ofNat n =>
      rw [Int.ofNat_eq_natCast, int64Text_ofNat] at member
      exact Or.inr (((digits_iff).mp (digits_toDigits n)).2 c member)
  | negSucc n =>
      rw [int64Text_negSucc] at member
      rcases List.mem_cons.mp member with minus | digit
      · exact Or.inl minus
      · exact Or.inr (((digits_iff).mp (digits_toDigits _)).2 c digit)

theorem int64Text_ne_nil (n : Int) : int64Text n ≠ [] := by
  cases n with
  | ofNat n =>
      rw [Int.ofNat_eq_natCast, int64Text_ofNat]
      exact Nat.toDigits_ne_nil
  | negSucc n =>
      rw [int64Text_negSucc]
      exact List.cons_ne_nil _ _

/-- A decimal without an exponent. -/
def IsDecimal (cs : List Char) : Prop :=
  ∃ sign whole fraction, (sign = [] ∨ sign = ['-']) ∧ digits whole = true ∧
    (fraction = [] ∨ ∃ ds, fraction = '.' :: ds ∧ digits ds = true) ∧ cs = sign ++ (whole ++ fraction)

theorem isNumber_decimal {whole fraction : List Char} (whole_digits : digits whole = true)
    (fraction_digits : fraction = [] ∨ ∃ ds, fraction = '.' :: ds ∧ digits ds = true) :
    isNumber (whole ++ fraction) = true := by
  obtain ⟨nonempty, all⟩ := (digits_iff).mp whole_digits
  rcases fraction_digits with rfl | ⟨ds, rfl, more⟩
  · have front : whole.takeWhile Char.isDigit = whole := List.takeWhile_eq_self_iff.mpr all
    have back : whole.dropWhile Char.isDigit = [] := List.dropWhile_eq_nil_iff.mpr all
    simp [isNumber, front, back, whole_digits]
  · have allMore := ((digits_iff).mp more).2
    have front : (whole ++ '.' :: ds).takeWhile Char.isDigit = whole := by
      rw [List.takeWhile_append_of_pos all]
      simp
    have back : (whole ++ '.' :: ds).dropWhile Char.isDigit = '.' :: ds := by
      rw [List.dropWhile_append_of_pos all]
      simp
    have front' : ds.takeWhile Char.isDigit = ds := List.takeWhile_eq_self_iff.mpr allMore
    have back' : ds.dropWhile Char.isDigit = [] := List.dropWhile_eq_nil_iff.mpr allMore
    have both : digits (whole ++ ds) = true := by
      refine (digits_iff).mpr ⟨List.append_ne_nil_of_left_ne_nil nonempty ds, ?_⟩
      intro c member
      exact (List.mem_append.mp member).elim (all c) (allMore c)
    simp [isNumber, front, back, front', back', both]

theorem IsDecimal.isFloat {cs : List Char} (decimal : IsDecimal cs) : isFloat cs = true := by
  obtain ⟨sign, whole, fraction, signs, whole_digits, fraction_digits, rfl⟩ := decimal
  have number := isNumber_decimal whole_digits fraction_digits
  have bare : unsigned (sign ++ (whole ++ fraction)) = whole ++ fraction := by
    rcases signs with rfl | rfl
    · obtain ⟨nonempty, all⟩ := (digits_iff).mp whole_digits
      obtain ⟨c, more, rfl⟩ := List.exists_cons_of_ne_nil nonempty
      exact unsigned_digit (all c List.mem_cons_self) (more ++ fraction)
    · rfl
  simp [Exposition.isFloat, bare, number]

theorem IsDecimal.mem {cs : List Char} (decimal : IsDecimal cs) {c : Char} (member : c ∈ cs) :
    c = '-' ∨ c = '.' ∨ c.isDigit = true := by
  obtain ⟨sign, whole, fraction, signs, whole_digits, fraction_digits, rfl⟩ := decimal
  rcases List.mem_append.mp member with minus | number
  · rcases signs with rfl | rfl
    · cases minus
    · exact Or.inl (List.mem_singleton.mp minus)
  · rcases List.mem_append.mp number with digit | rest
    · exact Or.inr (Or.inr (((digits_iff).mp whole_digits).2 c digit))
    · rcases fraction_digits with rfl | ⟨ds, rfl, more⟩
      · cases rest
      · rcases List.mem_cons.mp rest with dot | digit
        · exact Or.inr (Or.inl dot)
        · exact Or.inr (Or.inr (((digits_iff).mp more).2 c digit))

theorem isDecimal_int64Text (n : Int) : IsDecimal (int64Text n) := by
  cases n with
  | ofNat n =>
      rw [Int.ofNat_eq_natCast, int64Text_ofNat]
      exact ⟨[], _, [], Or.inl rfl, digits_toDigits n, Or.inl rfl, by simp⟩
  | negSucc n =>
      rw [int64Text_negSucc]
      exact ⟨['-'], _, [], Or.inr rfl, digits_toDigits (n + 1), Or.inl rfl, by simp⟩

end Numbers

section Lines

theorem alpha_sharp {c : Char} (alpha : labelStart c = true) : isBlank c = false ∧ c ≠ '}' := by
  constructor
  · by_contra blank
    simp only [isBlank, Bool.not_eq_false, Bool.or_eq_true, beq_iff_eq] at blank
    rcases blank with rfl | rfl <;> simp [labelStart] at alpha
  · rintro rfl
    simp [labelStart] at alpha

def LabelsFit (labels : List (List Char × List Char)) : Prop := ∀ label ∈ labels, Word labelStart labelRest label.1

theorem labels_read {fuel : Nat} {labels : List (List Char × List Char)} (fit : LabelsFit labels)
    (nonempty : labels ≠ []) (enough : labels.length ≤ fuel) (rest : List Char) :
    Exposition.labels fuel ([','].intercalate (labels.map labelText) ++ '}' :: rest) = some (labels, rest) := by
  induction labels generalizing fuel with
  | nil => exact absurd rfl nonempty
  | cons label more ih =>
      obtain ⟨fuel, rfl⟩ := Nat.exists_eq_add_of_le' (Nat.le_trans (Nat.succ_le_succ (Nat.zero_le _)) enough)
      obtain ⟨name, value⟩ := label
      have isWord : Word labelStart labelRest name := fit _ List.mem_cons_self
      obtain ⟨c, cs, spelled, first, -⟩ := id isWord
      have one (after : List Char) :
          labelText (name, value) ++ after = name ++ '=' :: '"' :: (escape value ++ '"' :: after) := by
        simp [labelText]
      have opens (after : List Char) : symbol '}' (labelText (name, value) ++ after) = none := by
        rw [one, spelled]
        exact symbol_other (alpha_sharp first).1 (alpha_sharp first).2
      have named (after : List Char) : word labelStart labelRest (name ++ '=' :: after) = some (name, '=' :: after) :=
        word_append isWord (fun x start => (alpha_sharp start).1) (by simp; decide)
      cases more with
      | nil =>
          rw [List.map_singleton, List.intercalate_singleton, Exposition.labels, opens]
          simp [one, named, symbol_self, symbol_other, quoted_escape, isBlank]
      | cons next later =>
          have others := ih (fun label member => fit label (List.mem_cons_of_mem _ member)) (List.cons_ne_nil _ _)
            (Nat.le_of_succ_le_succ enough)
          rw [List.map_cons, List.map_cons, List.intercalate_cons_cons, ← List.map_cons, List.append_assoc,
            List.append_assoc, Exposition.labels, opens]
          generalize [','].intercalate ((next :: later).map labelText) ++ '}' :: rest = after at others ⊢
          simp [one, named, symbol_self, quoted_escape, isBlank, others]

theorem intercalate_labels (label : List Char × List Char) (more : List (List Char × List Char)) :
    [','].intercalate ((label :: more).map labelText) =
      labelText label ++ more.flatMap fun next => ',' :: labelText next := by
  induction more generalizing label with
  | nil => simp
  | cons next more ih =>
      rw [List.map_cons, List.map_cons, List.intercalate_cons_cons, ← List.map_cons, ih, List.flatMap_cons]
      simp

theorem length_labels_le (labels : List (List Char × List Char)) :
    labels.length ≤ ([','].intercalate (labels.map labelText)).length := by
  induction labels with
  | nil => exact Nat.zero_le _
  | cons label more ih =>
      have some : 1 ≤ (labelText label).length := by
        simp only [labelText, List.length_append, List.length_cons]
        omega
      cases more with
      | nil => simpa using some
      | cons next later =>
          rw [List.map_cons, List.map_cons, List.intercalate_cons_cons, ← List.map_cons, List.length_append,
            List.length_append, List.length_cons]
          omega

structure SampleFits (name : List Char) (labels : List (List Char × List Char)) (value : List Char) (timestamp : Int) :
    Prop where
  named : Word nameStart nameRest name
  labelled : LabelsFit labels
  nonempty : labels ≠ []
  isFloat : isFloat value = true
  sharp : ∀ c ∈ value, isBlank c = false ∧ c ≠ '\n'
  stamped : FitsInt64 timestamp

variable {name value : List Char} {labels : List (List Char × List Char)} {timestamp : Int}

theorem nameStart_sharp {c : Char} (start : nameStart c = true) : isBlank c = false := by
  rcases Bool.or_eq_true_iff.mp start with alpha | colon
  · exact (alpha_sharp alpha).1
  · rw [beq_iff_eq.mp colon]
    rfl

theorem parseLine_text (fits : SampleFits name labels value timestamp) :
    parseLine (sampleText name labels value timestamp) = some ⟨name, labels, value, some timestamp⟩ := by
  let after := ' ' :: (value ++ ' ' :: int64Text timestamp)
  let inside := [','].intercalate (labels.map labelText) ++ '}' :: after
  have named : word nameStart nameRest (sampleText name labels value timestamp) = some (name, '{' :: inside) :=
    word_append fits.named (fun x start => nameStart_sharp start) (by simp; decide)
  have enough : labels.length ≤ inside.length + 1 := by
    have counted := length_labels_le labels
    simp only [inside, List.length_append]
    omega
  have labelled : Exposition.labels (inside.length + 1) inside = some (labels, after) :=
    labels_read fits.labelled fits.nonempty enough after
  have some_value : value ≠ [] := by
    rintro rfl
    cases fits.isFloat
  have valued : field after = (value, ' ' :: int64Text timestamp) := by
    rw [field_blank]
    exact field_append some_value (fun x member => (fits.sharp x member).1) (by simp [isBlank])
  have stamped : field (' ' :: int64Text timestamp) = (int64Text timestamp, []) := by
    have sharp (c : Char) (member : c ∈ int64Text timestamp) : isBlank c = false := by
      rcases mem_int64Text member with rfl | digit
      · rfl
      · exact (digit_sharp digit).1
    rw [field_blank]
    have read : field (int64Text timestamp ++ []) = (int64Text timestamp, []) :=
      field_append (int64Text_ne_nil timestamp) sharp (by simp)
    rwa [List.append_nil] at read
  obtain ⟨c, cs, text⟩ := List.exists_cons_of_ne_nil (int64Text_ne_nil timestamp)
  have nonempty : field (' ' :: int64Text timestamp) = (c :: cs, []) := stamped.trans (by rw [text])
  simp only [parseLine, named, Option.bind_eq_bind, Option.bind_some, symbol_self (show isBlank '{' = false from rfl),
    labelled, valued, fits.isFloat, if_true, nonempty]
  rw [← text, int64_text fits.stamped]
  rfl

theorem readSeries_text (named : Word nameStart nameRest name) (labelled : LabelsFit labels) (nonempty : labels ≠ [])
    (rest : List Char) :
    readSeries (name ++ '{' :: ([','].intercalate (labels.map labelText) ++ '}' :: rest)) = some (name, labels) := by
  let inside := [','].intercalate (labels.map labelText) ++ '}' :: rest
  have read : word nameStart nameRest (name ++ '{' :: inside) = some (name, '{' :: inside) :=
    word_append named (fun x start => nameStart_sharp start) (by simp; decide)
  have enough : labels.length ≤ inside.length + 1 := by
    have counted := length_labels_le labels
    simp only [inside, List.length_append]
    omega
  have inner : Exposition.labels (inside.length + 1) inside = some (labels, rest) :=
    labels_read labelled nonempty enough rest
  show readSeries (name ++ '{' :: inside) = some (name, labels)
  simp only [readSeries, read, Option.bind_eq_bind, Option.bind_some, symbol_self (show isBlank '{' = false from rfl),
    inner]
  rfl

theorem Word.feed_not_mem {start rest : Char → Bool} {cs : List Char} (isWord : Word start rest cs)
    (first : start '\n' = false) (later : rest '\n' = false) : '\n' ∉ cs := by
  obtain ⟨c, more, rfl, starts, all⟩ := isWord
  intro member
  rcases List.mem_cons.mp member with rfl | after
  · rw [first] at starts
    cases starts
  · have inside := all _ after
    rw [later] at inside
    cases inside

theorem feed_not_mem_labels (fit : LabelsFit labels) : '\n' ∉ [','].intercalate (labels.map labelText) := by
  have one (label : List Char × List Char) (member : label ∈ labels) : '\n' ∉ labelText label := by
    have name := (fit label member).feed_not_mem (by decide) (by decide)
    simp [labelText, name, feed_not_mem_escape]
  induction labels with
  | nil => exact List.not_mem_nil
  | cons label more ih =>
      have later := ih (fun label member => fit label (List.mem_cons_of_mem _ member))
        (fun label member => one label (List.mem_cons_of_mem _ member))
      cases more with
      | nil => simpa using one label List.mem_cons_self
      | cons next rest =>
          rw [List.map_cons, List.map_cons, List.intercalate_cons_cons, ← List.map_cons]
          simp only [List.mem_append, List.mem_singleton, not_or]
          exact ⟨⟨one label List.mem_cons_self, by decide⟩, later⟩

theorem feed_not_mem_text (fits : SampleFits name labels value timestamp) :
    '\n' ∉ sampleText name labels value timestamp := by
  have named : '\n' ∉ name := fits.named.feed_not_mem (by decide) (by decide)
  have valued : '\n' ∉ value := fun member => (fits.sharp _ member).2 rfl
  have stamped : '\n' ∉ int64Text timestamp := by
    intro member
    rcases mem_int64Text member with minus | digit
    · cases minus
    · cases digit
  simp [sampleText, named, feed_not_mem_labels fits.labelled, valued, stamped]

theorem lines_cons {line : List Char} (whole : '\n' ∉ line) (text : List Char) :
    lines (line ++ '\n' :: text) = (lines text).map (line :: ·) := by
  obtain ⟨piece, pieces, split⟩ := List.exists_cons_of_ne_nil (List.splitOn_ne_nil '\n' text)
  rw [lines, lines, List.splitOn_append_cons_self_of_not_mem whole, split, List.getLast?_cons_cons,
    List.dropLast_cons_cons]
  split_ifs <;> rfl

end Lines

end Daimon.Lib.Exposition
