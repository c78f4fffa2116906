import Daimon.Lib.Utf8
import Daimon.Llm.Local

/-!
# Packet boundaries of a local stream

The mapper reads each network chunk by itself. It yields the same deltas however the stream is cut as long as every cut
stands at a side of the text of a line: a line of which two chunks hold a part is lost.
-/

namespace Daimon.Proof.Llm.LocalClient
open Daimon.App.Chat (ContentDelta LlmStream)
open Daimon.Llm Daimon.Llm.LocalClient Lib

/-! ## JSON texts -/

/-- What is relied on of the reader of JSON: white space around a value is nothing to it, a value that has brackets ends
at its last one, and a text without a value is none. -/
structure ReadsJson (parse : List Char → Option Json) : Prop where
  inner : ∀ x p y v, blank x = true → blank y = true → blank p = false → parse (x ++ p ++ y) = some v → parse p = some v
  ends : ∀ p y v chunk, ((parse p).bind OllamaStreamChunk.fromValue) = some chunk → parse (p ++ y) = some v →
    blank y = true

variable {parse : List Char → Option Json} {texts : DecodeTexts}

/-- A line that the mapper decodes. -/
def IsChunk (parse : List Char → Option Json) (line : List Char) : Prop :=
  ∃ chunk, (parse line).bind OllamaStreamChunk.fromValue = some chunk

/-- A newline-delimited stream of chunks. -/
def Sent (parse : List Char → Option Json) (bytes : ByteArray) : Prop :=
  ∃ text, String.fromUTF8? bytes = some text ∧ ∀ line ∈ visibleLines text, IsChunk parse line

def joined (chunks : List ByteArray) : ByteArray := chunks.foldr (· ++ ·) ByteArray.empty

def lastLine (text : String) : List Char := (text.toList.splitOn '\n').getLastD []

def firstLine (text : String) : List Char := (text.toList.splitOn '\n').headD []

/-- Each chunk is whole characters, and what it has of its last line or what follows of that line is blank. -/
def CutsBetweenLines : List ByteArray → Prop
  | [] => True
  | chunk :: rest =>
      (∃ text after, String.fromUTF8? chunk = some text ∧ String.fromUTF8? (joined rest) = some after ∧
        (blank (lastLine text) = true ∨ blank (firstLine after) = true)) ∧ CutsBetweenLines rest

/-! ## Lines across a cut -/

def shown (line : List Char) : List (List Char) := if blank line then [] else [line]

theorem filter_cons_shown (line : List Char) (rest : List (List Char)) :
    (line :: rest).filter (fun line => !blank line) = shown line ++ rest.filter fun line => !blank line := by
  rw [List.filter_cons, shown]
  cases blank line <;> rfl

theorem visibleLines_append (text after : String) : ∃ front back, visibleLines text = front ++ shown (lastLine text) ∧
    visibleLines after = shown (firstLine after) ++ back ∧
    visibleLines (text ++ after) = front ++ (shown (lastLine text ++ firstLine after) ++ back) := by
  obtain ⟨pieces, last, left⟩ : ∃ pieces last, text.toList.splitOn '\n' = pieces ++ [last] :=
    ⟨_, _, (List.dropLast_concat_getLast (List.splitOn_ne_nil '\n' text.toList)).symm⟩
  obtain ⟨first, later, right⟩ := List.exists_cons_of_ne_nil (List.splitOn_ne_nil '\n' after.toList)
  have at_end : lastLine text = last := by
    rw [lastLine, left]
    simp
  have at_start : firstLine after = first := by
    rw [firstLine, right]
    rfl
  rw [at_end, at_start]
  refine ⟨pieces.filter fun line => !blank line, later.filter fun line => !blank line, ?_, ?_, ?_⟩
  · rw [visibleLines, left, List.filter_append, filter_cons_shown]
    simp
  · rw [visibleLines, right, filter_cons_shown]
  · rw [visibleLines, String.toList_append, splitOn_append left right, List.filter_append, filter_cons_shown]

theorem blank_append {xs ys : List Char} : blank (xs ++ ys) = (blank xs && blank ys) := List.all_append

variable (parse) in
/-- The deltas of a line, none where it is no chunk. -/
def deltasOf (line : List Char) : List ContentDelta :=
  (((parse line).bind OllamaStreamChunk.fromValue).bind OllamaStreamChunk.intoDelta).toList

theorem lineDeltas_eq {lines : List (List Char)} (chunks : ∀ line ∈ lines, IsChunk parse line) :
    lineDeltas parse texts lines = .ok (lines.flatMap (deltasOf parse)) := by
  induction lines with
  | nil => rfl
  | cons line rest ih =>
      obtain ⟨chunk, decoded⟩ := chunks line List.mem_cons_self
      have later := ih fun line member => chunks line (List.mem_cons_of_mem _ member)
      simp only [lineDeltas, fromLine, decoded, later, List.flatMap_cons, deltasOf]
      rfl

theorem lineDeltas_error {lines : List (List Char)} {line : List Char} (member : line ∈ lines)
    (other : ¬IsChunk parse line) : ∃ e, lineDeltas parse texts lines = .error e := by
  induction lines with
  | nil => cases member
  | cons first rest ih =>
      cases read : fromLine parse texts first with
      | error e =>
          refine ⟨e, ?_⟩
          rw [lineDeltas, read]
          rfl
      | ok chunk =>
          have later : line ∈ rest := by
            rcases List.mem_cons.mp member with rfl | later
            · unfold fromLine at read
              split at read
              · rename_i decoded
                exact absurd ⟨_, decoded⟩ other
              · cases read
            · exact later
          obtain ⟨e, failed⟩ := ih later
          refine ⟨e, ?_⟩
          rw [lineDeltas, read, failed]
          rfl

/-! ## One cut -/

theorem parse_inside (json : ReadsJson parse) {x p y : List Char} (before : blank x = true) (after : blank y = true)
    (visible : blank p = false) (whole : IsChunk parse (x ++ p ++ y)) : parse (x ++ p ++ y) = parse p := by
  obtain ⟨chunk, decoded⟩ := whole
  obtain ⟨v, parsed, -⟩ := Option.bind_eq_some_iff.mp decoded
  rw [parsed, json.inner x p y v before after visible parsed]

/-- A line of which one side of a cut is blank is, as a chunk, its other side. -/
theorem cut_line (json : ReadsJson parse) {a b : List Char} (chunks : ∀ line ∈ shown (a ++ b), IsChunk parse line)
    (side : blank a = true ∨ blank b = true) :
    (∀ line ∈ shown a, IsChunk parse line) ∧ (∀ line ∈ shown b, IsChunk parse line) ∧
      (shown (a ++ b)).flatMap (deltasOf parse) =
        (shown a).flatMap (deltasOf parse) ++ (shown b).flatMap (deltasOf parse) := by
  have nothing : blank [] = true := rfl
  unfold shown at *
  rw [blank_append] at *
  cases left : blank a <;> cases right : blank b
  · simp [left, right] at side
  · simp only [left, right, Bool.false_and, Bool.false_eq_true, if_false, if_true, List.mem_singleton, forall_eq]
      at chunks ⊢
    have same : parse ([] ++ a ++ b) = parse a := parse_inside json nothing right left chunks
    rw [List.nil_append] at same
    unfold IsChunk deltasOf at *
    rw [same] at chunks
    exact ⟨chunks, by simp, by simp [same]⟩
  · simp only [left, right, Bool.and_false, Bool.false_eq_true, if_false, if_true, List.mem_singleton, forall_eq]
      at chunks ⊢
    have same : parse (a ++ b ++ []) = parse b :=
      parse_inside json left nothing right (by rwa [List.append_nil])
    rw [List.append_nil] at same
    unfold IsChunk deltasOf at *
    rw [same] at chunks
    exact ⟨by simp, chunks, by simp [same]⟩
  · simp

/-- A cut beside the text of a line leaves the same chunks in the same order. -/
theorem deltas_across_cut (json : ReadsJson parse) {text after : String}
    (chunks : ∀ line ∈ visibleLines (text ++ after), IsChunk parse line)
    (side : blank (lastLine text) = true ∨ blank (firstLine after) = true) :
    (∀ line ∈ visibleLines text, IsChunk parse line) ∧ (∀ line ∈ visibleLines after, IsChunk parse line) ∧
      (visibleLines (text ++ after)).flatMap (deltasOf parse) =
        (visibleLines text).flatMap (deltasOf parse) ++ (visibleLines after).flatMap (deltasOf parse) := by
  obtain ⟨front, back, left, right, whole⟩ := visibleLines_append text after
  rw [whole] at chunks
  simp only [List.mem_append, or_imp, forall_and] at chunks
  obtain ⟨in_front, in_cut, in_back⟩ := chunks
  obtain ⟨last, first, same⟩ := cut_line json in_cut side
  rw [left, right, whole]
  simp only [List.mem_append, or_imp, forall_and, List.flatMap_append, same, List.append_assoc, and_true]
  exact ⟨⟨in_front, last⟩, first, in_back⟩

/-- A line with a part on each side of a cut has no chunk in the first part. -/
theorem not_isChunk_of_cut (json : ReadsJson parse) {text after : String}
    (chunks : ∀ line ∈ visibleLines (text ++ after), IsChunk parse line)
    (left : blank (lastLine text) = false) (right : blank (firstLine after) = false) :
    lastLine text ∈ visibleLines text ∧ ¬IsChunk parse (lastLine text) := by
  obtain ⟨front, back, lines, -, whole⟩ := visibleLines_append text after
  constructor
  · rw [lines, shown, left]
    simp
  · rintro ⟨chunk, decoded⟩
    have both : lastLine text ++ firstLine after ∈ visibleLines (text ++ after) := by
      rw [whole, shown, blank_append, left]
      simp
    obtain ⟨other, read⟩ := chunks _ both
    obtain ⟨v, parsed, -⟩ := Option.bind_eq_some_iff.mp read
    rw [json.ends _ _ v chunk decoded parsed] at right
    cases right

/-! ## A stream in chunks -/

section Stream
variable (parse texts) in
def delivered (chunks : List ByteArray) : LlmStream := completeStream parse texts (chunks.map .ok)

theorem delivered_cons (chunk : ByteArray) (rest : List ByteArray) :
    delivered parse texts (chunk :: rest) = delivered parse texts [chunk] ++ delivered parse texts rest := by
  simp [delivered, completeStream]

theorem delivered_text {bytes : ByteArray} {text : String} (valid : String.fromUTF8? bytes = some text)
    (chunks : ∀ line ∈ visibleLines text, IsChunk parse line) :
    delivered parse texts [bytes] = ((visibleLines text).flatMap (deltasOf parse)).map .ok := by
  simp only [delivered, completeStream, List.map_singleton, List.flatMap_singleton, chunkDeltas, valid]
  rw [lineDeltas_eq chunks]

theorem delivered_error {bytes : ByteArray} (bad : ∀ text, String.fromUTF8? bytes = some text →
    ∃ line ∈ visibleLines text, ¬IsChunk parse line) : ∃ e, delivered parse texts [bytes] = [.error e] := by
  simp only [delivered, completeStream, List.map_singleton, List.flatMap_singleton, chunkDeltas]
  cases valid : String.fromUTF8? bytes with
  | none => exact ⟨_, rfl⟩
  | some text =>
      obtain ⟨line, member, other⟩ := bad text valid
      obtain ⟨e, failed⟩ := @lineDeltas_error parse texts _ _ member other
      refine ⟨e.display, ?_⟩
      simp only [failed]

/-- A first chunk that is read without an error is cut off beside the text of a line. -/
theorem beside_of_clean (json : ReadsJson parse) {chunk rest : ByteArray} {whole : String}
    (valid : String.fromUTF8? (chunk ++ rest) = some whole) (lines : ∀ line ∈ visibleLines whole, IsChunk parse line)
    (clean : ∀ e, delivered parse texts [chunk] ≠ [.error e]) :
    ∃ text after, String.fromUTF8? chunk = some text ∧ String.fromUTF8? rest = some after ∧ whole = text ++ after ∧
      (blank (lastLine text) = true ∨ blank (firstLine after) = true) := by
  obtain ⟨text, front⟩ : ∃ text, String.fromUTF8? chunk = some text := by
    by_contra cut
    obtain ⟨e, failed⟩ := @delivered_error parse texts chunk fun text found => absurd ⟨text, found⟩ cut
    exact clean e failed
  obtain ⟨after, back, rfl⟩ := fromUTF8_split front valid
  refine ⟨text, after, front, back, rfl, ?_⟩
  by_contra both
  simp only [not_or, Bool.not_eq_true] at both
  have part := not_isChunk_of_cut json lines both.1 both.2
  obtain ⟨e, failed⟩ := @delivered_error parse texts chunk fun other found => by
    rw [front] at found
    cases found
    exact ⟨_, part⟩
  exact clean e failed

end Stream

/-! ## A line in two packets -/

def stopFront : List Char := ['{', '"', 'd', 'o', 'n', 'e', '"']

def stopBack : List Char := [':', 't', 'r', 'u', 'e', '}']

/-- A reader that knows one line. -/
def readStop (line : List Char) : Option Json :=
  if line = stopFront ++ stopBack then some (.object [("done", .bool true)]) else none

theorem readsJson_readStop : ReadsJson readStop := by
  have start {x y : List Char} (blank_x : blank x = true) (same : x ++ y = stopFront ++ stopBack) : x = [] := by
    cases x with
    | nil => rfl
    | cons c xs =>
        obtain rfl : c = '{' := (List.cons.inj same).1
        cases blank_x
  have stop {x y : List Char} (blank_y : blank y = true) (same : x ++ y = stopFront ++ stopBack) : y = [] := by
    rcases List.eq_nil_or_concat y with none | ⟨ys, c, rfl⟩
    · exact none
    · have last := congrArg List.getLast? same
      simp only [List.concat_eq_append, ← List.append_assoc, List.getLast?_concat] at last
      obtain rfl : c = '}' := Option.some.inj last
      simp [blank, isWhitespace] at blank_y
  have known {p : List Char} {v : Json} (parsed : readStop p = some v) : p = stopFront ++ stopBack := by
    unfold readStop at parsed
    split_ifs at parsed with same
    exact same
  constructor
  · intro x p y v blank_x blank_y _ parsed
    have same := known parsed
    cases stop blank_y same
    rw [List.append_nil] at same parsed
    cases start blank_x same
    exact parsed
  · intro p y v chunk decoded parsed
    obtain ⟨w, read, -⟩ := Option.bind_eq_some_iff.mp decoded
    have same := known parsed
    rw [known read] at same
    rw [List.append_right_eq_self.mp same]
    rfl

def halves : List ByteArray := [(String.ofList stopFront).toByteArray, (String.ofList (stopBack ++ ['\n'])).toByteArray]

def noTexts : DecodeTexts := ⟨fun _ => "", fun _ => ""⟩

theorem halves_text : String.fromUTF8? (joined halves) =
    some (String.ofList stopFront ++ (String.ofList (stopBack ++ ['\n']) ++ "")) :=
  fromUTF8_append ((fromUTF8_eq_some).mpr rfl)
    (fromUTF8_append ((fromUTF8_eq_some).mpr rfl) ((fromUTF8_eq_some).mpr rfl))

theorem halves_lines : visibleLines (String.ofList stopFront ++ (String.ofList (stopBack ++ ['\n']) ++ "")) =
    [stopFront ++ stopBack] := by
  rw [visibleLines, String.toList_append, String.toList_append, String.toList_ofList, String.toList_ofList]
  rfl

theorem halves_chunks : ∀ line ∈ visibleLines (String.ofList stopFront ++ (String.ofList (stopBack ++ ['\n']) ++ "")),
    IsChunk readStop line := by
  rw [halves_lines]
  intro line member
  cases List.mem_singleton.mp member
  exact ⟨⟨none, true, none, 0, 0⟩, rfl⟩

end Daimon.Proof.Llm.LocalClient
