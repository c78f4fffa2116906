import Mathlib.Data.List.Basic
import Mathlib.Data.List.TakeWhile

/-!
# The parts of a URL

An absolute URL is cut at its delimiters: the scheme ends at the first colon, the authority at the first `/`, `?` or
`#` behind `://`, the path at the first `?` or `#`. The characters may carry labels, which their parts keep.
-/

namespace Daimon.Lib.Url

variable {β : Type*} (char : β → Char)

def endsAuthority (c : Char) : Bool := c == '/' || c == '?' || c == '#'

def endsPath (c : Char) : Bool := c == '?' || c == '#'

def scheme (url : List β) : List β := url.takeWhile fun b => char b != ':'

def hierarchy (url : List β) : List β := (url.dropWhile fun b => char b != ':').drop 3

def authority (url : List β) : List β := (hierarchy char url).takeWhile fun b => !endsAuthority (char b)

/-- A text that stands behind an authority, up to the query or the fragment. -/
def pathOf (rest : List β) : List β := rest.takeWhile fun b => !endsPath (char b)

def path (url : List β) : List β := pathOf char ((hierarchy char url).dropWhile fun b => !endsAuthority (char b))

/-- Each slash of a path begins a segment. -/
def segmentsOf (path : List β) : List (List β) := (path.splitOnP fun b => char b == '/').drop 1

variable {char}

theorem length_splitOnP {p : β → Bool} (xs : List β) : (xs.splitOnP p).length = xs.countP p + 1 := by
  induction xs with
  | nil => simp
  | cons x rest ih =>
      rw [List.splitOnP_cons_eq_if_modifyHead, List.countP_cons]
      split
      · simp [ih]
      · simp [ih]

theorem length_segmentsOf (path : List β) : (segmentsOf char path).length = path.countP fun b => char b == '/' := by
  rw [segmentsOf, List.length_drop, length_splitOnP, Nat.add_sub_cancel]

theorem mem_of_mem_splitOnP {p : β → Bool} {xs ys : List β} (piece : ys ∈ xs.splitOnP p) {y : β} (member : y ∈ ys) :
    y ∈ xs := by
  induction xs generalizing ys with
  | nil =>
      obtain rfl : ys = [] := by simpa using piece
      exact member
  | cons x rest ih =>
      rw [List.splitOnP_cons_eq_if_modifyHead] at piece
      split at piece
      · rcases List.mem_cons.mp piece with rfl | later
        · cases member
        · exact List.mem_cons_of_mem _ (ih later member)
      · obtain ⟨first, more, split⟩ := List.exists_cons_of_ne_nil (List.splitOnP_ne_nil p rest)
        rw [split, List.modifyHead_cons] at piece
        rcases List.mem_cons.mp piece with rfl | later
        · rcases List.mem_cons.mp member with rfl | inFirst
          · exact List.mem_cons_self
          · exact List.mem_cons_of_mem _ (ih (split ▸ List.mem_cons_self) inFirst)
        · exact List.mem_cons_of_mem _ (ih (split ▸ List.mem_cons_of_mem _ later) member)

theorem mem_of_mem_segmentsOf {rest segment : List β} (piece : segment ∈ segmentsOf char (pathOf char rest)) {b : β}
    (member : b ∈ segment) : b ∈ rest :=
  List.takeWhile_subset _ (mem_of_mem_splitOnP (List.mem_of_mem_drop piece) member)

/-! ## The authority -/

def Boundary (char : β → Char) (rest : List β) : Prop := ∀ b ∈ rest.head?, endsAuthority (char b) = true

def Located (char : β → Char) (schemeText authorityText : List Char) (url rest : List β) : Prop :=
  ∃ front, url = front ++ rest ∧ front.map char = schemeText ++ [':', '/', '/'] ++ authorityText ∧ Boundary char rest

theorem takeWhile_boundary {p : β → Bool} {front rest : List β} (all : ∀ b ∈ front, p b = true)
    (ends : ∀ b ∈ rest.head?, p b = false) :
    (front ++ rest).takeWhile p = front ∧ (front ++ rest).dropWhile p = rest := by
  have first : rest.takeWhile p = [] ∧ rest.dropWhile p = rest := by
    cases rest with
    | nil => exact ⟨rfl, rfl⟩
    | cons b more =>
        have stop := ends b rfl
        simp [stop]
  rw [List.takeWhile_append_of_pos all, List.dropWhile_append_of_pos all, first.1, first.2, List.append_nil]
  exact ⟨rfl, rfl⟩

theorem scheme_hierarchy {url : List β} {s x : List Char} (clean : ':' ∉ s)
    (text : url.map char = s ++ [':', '/', '/'] ++ x) :
    (scheme char url).map char = s ∧ (hierarchy char url).map char = x ∧
      ∃ front, url = front ++ hierarchy char url ∧ front.map char = s ++ [':', '/', '/'] := by
  obtain ⟨front, rest, rfl, front_text, rest_text⟩ := List.map_eq_append_iff.mp text
  obtain ⟨name, sep, rfl, name_text, sep_text⟩ := List.map_eq_append_iff.mp front_text
  have all : ∀ b ∈ name, (char b != ':') = true := by
    intro b member
    have inside : char b ∈ s := name_text ▸ List.mem_map_of_mem member
    simpa using fun is : char b = ':' => clean (is ▸ inside)
  have ends : ∀ b ∈ (sep ++ rest).head?, (char b != ':') = false := by
    intro b first
    cases sep with
    | nil => cases sep_text
    | cons b' sep =>
        cases first
        simpa using (List.cons.inj sep_text).1
  obtain ⟨taken, dropped⟩ := takeWhile_boundary all ends
  have three : sep.length = 3 := by simpa using congrArg List.length sep_text
  have behind : hierarchy char (name ++ sep ++ rest) = rest := by
    rw [hierarchy, List.append_assoc, dropped, ← three, List.drop_left]
  refine ⟨?_, ?_, name ++ sep, ?_, front_text⟩
  · rw [scheme, List.append_assoc, taken, name_text]
  · rw [behind, rest_text]
  · rw [behind]

theorem Located.parts {url rest : List β} {s a : List Char} (clean : ':' ∉ s)
    (bare : ∀ c ∈ a, endsAuthority c = false) (located : Located char s a url rest) :
    (scheme char url).map char = s ∧ (authority char url).map char = a ∧ path char url = pathOf char rest := by
  obtain ⟨front, rfl, text, boundary⟩ := located
  obtain ⟨origin, host, rfl, origin_text, host_text⟩ := List.map_eq_append_iff.mp text
  have whole_text : (origin ++ host ++ rest).map char = s ++ [':', '/', '/'] ++ (host ++ rest).map char := by
    rw [List.append_assoc, List.map_append, origin_text]
  obtain ⟨name, -, front, whole, front_text⟩ := scheme_hierarchy clean whole_text
  have lengths : front.length = origin.length := by
    simpa using congrArg List.length (front_text.trans origin_text.symm)
  have is : host ++ rest = hierarchy char (origin ++ host ++ rest) :=
    (List.append_inj ((List.append_assoc _ _ _).symm.trans whole) lengths.symm).2
  have all : ∀ b ∈ host, (!endsAuthority (char b)) = true := by
    intro b member
    simpa using bare (char b) (host_text ▸ List.mem_map_of_mem member)
  have ends : ∀ b ∈ rest.head?, (!endsAuthority (char b)) = false := by
    intro b first
    simpa using boundary b first
  obtain ⟨taken, dropped⟩ := takeWhile_boundary all ends
  refine ⟨name, ?_, ?_⟩
  · rw [authority, ← is, taken, host_text]
  · rw [path, ← is, dropped]

theorem Located.unique {url rest rest' : List β} {s a : List Char} (located : Located char s a url rest)
    (located' : Located char s a url rest') : rest = rest' := by
  obtain ⟨front, rfl, text, -⟩ := located
  obtain ⟨front', same, text', -⟩ := located'
  have lengths : front.length = front'.length := by
    simpa using congrArg List.length (text.trans text'.symm)
  exact (List.append_inj same lengths).2

theorem located_iff {url : List β} {s x s' a : List Char} (clean : ':' ∉ s) (clean' : ':' ∉ s')
    (text : url.map char = s ++ [':', '/', '/'] ++ x) :
    ((scheme char url).map char = s' ∧ (authority char url).map char = a) ↔
      (∀ c ∈ a, endsAuthority c = false) ∧ ∃ rest, Located char s' a url rest := by
  constructor
  · rintro ⟨rfl, rfl⟩
    obtain ⟨name, -, front, whole, front_text⟩ := scheme_hierarchy clean text
    constructor
    · intro c member
      obtain ⟨b, inside, rfl⟩ := List.mem_map.mp member
      simpa using List.mem_takeWhile_imp inside
    · refine ⟨(hierarchy char url).dropWhile fun b => !endsAuthority (char b), front ++ authority char url, ?_, ?_, ?_⟩
      · rw [authority, List.append_assoc, List.takeWhile_append_dropWhile, ← whole]
      · rw [List.map_append, front_text, name]
      · intro b first
        have stop := List.head?_dropWhile_not (fun b => !endsAuthority (char b)) (hierarchy char url)
        rw [Option.mem_def.mp first] at stop
        simpa using stop
  · rintro ⟨bare, rest, located⟩
    obtain ⟨name, host, -⟩ := located.parts clean' bare
    exact ⟨name, host⟩

end Daimon.Lib.Url
