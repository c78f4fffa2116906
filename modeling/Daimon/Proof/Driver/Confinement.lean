import Daimon.Lib.Url
import Daimon.Proof.Driver.Injection
import Daimon.Transport.Rest

/-!
# Where a REST request goes

The transport takes a filled path template that begins with `http://` or `https://` for the whole URL, and joins
every other one to the target. A value of a parameter may hold slashes, dots and colons: it can be the start of
another URL, add segments, or be a dot segment.
-/

namespace Daimon.Proof.Driver
open Daimon.Core Lib Daimon.Driver Daimon.Broker Daimon.Transport
open Daimon.Driver.Connector (Validated DeclaredCap dispatchRequest collectParams)

/-- A character with the slot it came from, or `none` where it is not a parameter's. -/
abbrev Piece := Char × Option (List Char)

def textOf (pieces : List Piece) : String := String.ofList (pieces.map Prod.fst)

def own (text : String) : List Piece := text.toList.map (·, none)

def hostAndPort (target : TransportTarget) : String := target.host ++ ":" ++ toString target.port

def urlPieces (target : TransportTarget) (filled : List Piece) : List Piece :=
  if isAbsolute (textOf filled) then filled
  else own ("https://" ++ hostAndPort target ++ leadingSep (textOf filled)) ++ filled

/-- A leading slash supplied, the slashes outside the slots up to the query of the template. -/
def templateSegments (template : String) (layout : Layout Char) : Nat :=
  (Url.pathOf id ((leadingSep template).toList ++ (layout.slots.flatMap Prod.fst ++ layout.last))).count '/'

def IsDots (segment : List Piece) : Prop := textOf segment = "." ∨ textOf segment = ".."

/-- The scheme is `https`, the authority the target's host and port, the path has the given number of segments,
and no segment `.` or `..` holds a character of a parameter. -/
structure Confined (target : TransportTarget) (segments : Nat) (url : List Piece) : Prop where
  scheme : (Url.scheme Prod.fst url).map Prod.fst = "https".toList
  authority : (Url.authority Prod.fst url).map Prod.fst = (hostAndPort target).toList
  segments : (Url.segmentsOf Prod.fst (Url.path Prod.fst url)).length = segments
  dots : ∀ segment ∈ Url.segmentsOf Prod.fst (Url.path Prod.fst url), IsDots segment → ∀ p ∈ segment, p.2 = none

/-! ## The condition -/

/-- The slashes that values bring into the path and those of the template are together as many as the segments of
the template, and no segment with a value's character reads `.` or `..`. -/
def KeepsSegments (segments : Nat) (rest : List Piece) : Prop :=
  ((Url.pathOf Prod.fst rest).countP fun p => p.1 == '/' && p.2.isSome) +
      ((Url.pathOf Prod.fst rest).countP fun p => p.1 == '/' && p.2.isNone) = segments ∧
    ∀ segment ∈ Url.segmentsOf Prod.fst (Url.pathOf Prod.fst rest), (∃ p ∈ segment, p.2.isSome) → ¬IsDots segment

/-- The host has no delimiter, the filled template does not begin a URL, unless it spells out the target's, and the
segments are kept. -/
def Harmless (target : TransportTarget) (segments : Nat) (filled : List Piece) : Prop :=
  (∀ c ∈ target.host.toList, Url.endsAuthority c = false) ∧
    if isAbsolute (textOf filled) then
      ∃ rest, Url.Located Prod.fst "https".toList (hostAndPort target).toList filled rest ∧ KeepsSegments segments rest
    else KeepsSegments segments (own (leadingSep (textOf filled)) ++ filled)

variable {target : TransportTarget} {segments : Nat} {filled : List Piece}

theorem map_fst_own (text : String) : (own text).map Prod.fst = text.toList := by
  simp [own, Function.comp_def]

theorem stripPrefix?_isSome {scheme text : String} :
    (stripPrefix? scheme text).isSome = true ↔ scheme.toList <+: text.toList := by
  unfold stripPrefix?
  split <;> simp_all

theorem urlPieces_text (target : TransportTarget) (filled : List Piece) :
    textOf (urlPieces target filled) = fullUrl target (textOf filled) := by
  unfold urlPieces fullUrl hostAndPort
  split
  · rfl
  · rw [textOf, List.map_append, map_fst_own, String.ofList_append, String.ofList_toList]
    simp [textOf, String.append_assoc]

theorem hostAndPort_bare : (∀ c ∈ (hostAndPort target).toList, Url.endsAuthority c = false) ↔
    ∀ c ∈ target.host.toList, Url.endsAuthority c = false := by
  have digits (c : Char) (member : c ∈ (toString target.port).toList) : Url.endsAuthority c = false := by
    have digit : c.isDigit = true := by
      rw [show toString target.port = target.port.repr from rfl, Nat.toList_repr] at member
      exact Nat.isDigit_of_mem_toDigits (by decide) (by decide) member
    unfold Url.endsAuthority
    by_contra delimiter
    simp only [Bool.not_eq_false, Bool.or_eq_true, beq_iff_eq] at delimiter
    rcases delimiter with (rfl | rfl) | rfl <;> cases digit
  simp only [hostAndPort, String.toList_append, List.mem_append]
  constructor
  · intro bare c member
    exact bare c (Or.inl (Or.inl member))
  · rintro bare c ((member | colon) | digit)
    · exact bare c member
    · obtain rfl : c = ':' := by simpa using colon
      rfl
    · exact digits c digit

theorem keepsSegments_iff (rest : List Piece) :
    KeepsSegments segments rest ↔
      (Url.segmentsOf Prod.fst (Url.pathOf Prod.fst rest)).length = segments ∧
        ∀ segment ∈ Url.segmentsOf Prod.fst (Url.pathOf Prod.fst rest), IsDots segment → ∀ p ∈ segment, p.2 = none := by
  have count (path : List Piece) : (path.countP fun p => p.1 == '/' && p.2.isSome) +
      (path.countP fun p => p.1 == '/' && p.2.isNone) = path.countP fun p => p.1 == '/' := by
    induction path with
    | nil => rfl
    | cons p path ih =>
        obtain ⟨c, slot⟩ := p
        rw [List.countP_cons, List.countP_cons, List.countP_cons, ← ih]
        cases slot <;> simp <;> split <;> omega
  rw [KeepsSegments, count, Url.length_segmentsOf]
  refine and_congr_right fun _ => forall₂_congr fun segment _ => ?_
  constructor
  · intro clean dots p member
    by_contra valued
    exact clean ⟨p, member, Option.isSome_iff_ne_none.mpr valued⟩ dots
  · rintro clean ⟨p, member, valued⟩ dots
    rw [clean dots p member] at valued
    cases valued

theorem confined_iff {url : List Piece} {s x : List Char} (clean : ':' ∉ s)
    (text : url.map Prod.fst = s ++ [':', '/', '/'] ++ x) :
    Confined target segments url ↔ (∀ c ∈ target.host.toList, Url.endsAuthority c = false) ∧
      ∃ rest, Url.Located Prod.fst "https".toList (hostAndPort target).toList url rest ∧
        KeepsSegments segments rest := by
  have clean' : ':' ∉ "https".toList := by decide
  have parts := Url.located_iff (a := (hostAndPort target).toList) clean clean' text
  constructor
  · intro confined
    obtain ⟨bare, rest, located⟩ := parts.mp ⟨confined.scheme, confined.authority⟩
    have path := (located.parts clean' bare).2.2
    refine ⟨(hostAndPort_bare).mp bare, rest, located, (keepsSegments_iff rest).mpr ?_⟩
    rw [← path]
    exact ⟨confined.segments, confined.dots⟩
  · rintro ⟨bare, rest, located, kept⟩
    obtain ⟨name, host, path⟩ := located.parts clean' ((hostAndPort_bare).mpr bare)
    obtain ⟨count, dots⟩ := (keepsSegments_iff rest).mp kept
    rw [← path] at count dots
    exact ⟨name, host, count, dots⟩

theorem leadingSep_boundary (filled : List Piece) :
    Url.Boundary Prod.fst (own (leadingSep (textOf filled)) ++ filled) := by
  unfold leadingSep
  split
  · rename_i slash
    intro p first
    obtain ⟨more, text⟩ := (stripPrefix?_isSome).mp slash
    cases filled with
    | nil => cases first
    | cons q filled =>
        cases first
        have same : '/' = p.1 := by
          simpa [textOf] using congrArg List.head? text
        rw [← same]
        rfl
  · intro p first
    cases first
    rfl

theorem confined_iff_harmless :
    Confined target segments (urlPieces target filled) ↔ Harmless target segments filled := by
  unfold urlPieces Harmless
  by_cases absolute : isAbsolute (textOf filled) = true
  · rw [if_pos absolute, if_pos absolute]
    rcases Bool.or_eq_true _ _ |>.mp absolute with plain | tls
    · obtain ⟨x, text⟩ := (stripPrefix?_isSome).mp plain
      exact confined_iff (s := "http".toList) (x := x) (by decide) (by simpa [textOf] using text.symm)
    · obtain ⟨x, text⟩ := (stripPrefix?_isSome).mp tls
      exact confined_iff (s := "https".toList) (x := x) (by decide) (by simpa [textOf] using text.symm)
  · rw [if_neg absolute, if_neg absolute]
    have located : Url.Located Prod.fst "https".toList (hostAndPort target).toList
        (own ("https://" ++ hostAndPort target ++ leadingSep (textOf filled)) ++ filled)
        (own (leadingSep (textOf filled)) ++ filled) := by
      refine ⟨own ("https://" ++ hostAndPort target), ?_, ?_, leadingSep_boundary filled⟩
      · simp [own]
      · rw [map_fst_own]
        simp
    obtain ⟨front, whole, text, -⟩ := id located
    rw [confined_iff (s := "https".toList) (by decide) (by rw [whole, List.map_append, text, List.append_assoc])]
    refine and_congr_right fun _ => ⟨?_, fun kept => ⟨_, located, kept⟩⟩
    rintro ⟨rest, located', kept⟩
    rwa [located.unique located']

/-! ## Plain values -/

theorem own_pieces (layout : Layout Char) (values : List Char → Option (List Char)) :
    ((layout.pieces values).filter fun p => p.2.isNone).map Prod.fst =
      layout.slots.flatMap Prod.fst ++ layout.last := by
  obtain ⟨slots, last⟩ := layout
  induction slots with
  | nil => simp [Layout.pieces, List.filter_map, Function.comp_def]
  | cons slot slots ih =>
      obtain ⟨before, name⟩ := slot
      simp only [Layout.pieces, List.flatMap_cons, List.append_assoc, List.filter_append, List.map_append] at ih ⊢
      rw [ih]
      simp [List.filter_map, Function.comp_def]

theorem count_own {pieces : List Piece} (inside : ∀ c name, (c, some name) ∈ pieces → Url.endsPath c = false) :
    (Url.pathOf Prod.fst pieces).countP (fun p => p.1 == '/' && p.2.isNone) =
      (Url.pathOf id ((pieces.filter fun p => p.2.isNone).map Prod.fst)).count '/' := by
  induction pieces with
  | nil => rfl
  | cons p pieces ih =>
      obtain ⟨c, slot⟩ := p
      have rest := ih fun c name member => inside c name (List.mem_cons_of_mem _ member)
      simp only [Url.pathOf, id_eq] at rest ⊢
      cases slot with
      | none =>
          cases ends : Url.endsPath c with
          | true => simp [ends]
          | false => simp [ends, List.countP_cons, List.count_cons, rest]
      | some name => simp [inside c name List.mem_cons_self, rest]

theorem filled_slash {layout : Layout Char} {template : String} (values : List Char → Option (List Char))
    (reads : layout.Reads '{' '}' template.toList) (slash : ['/'] <+: template.toList) :
    ['/'] <+: (textOf (layout.pieces values)).toList := by
  obtain ⟨slots, last⟩ := layout
  obtain ⟨more, text⟩ := slash
  have whole := reads.unparse.trans text.symm
  rw [textOf, String.toList_ofList]
  cases slots with
  | nil =>
      have is : last = '/' :: more := by simpa [Layout.unparse] using whole
      simp [Layout.pieces, is, List.prefix_cons_iff]
  | cons slot slots =>
      obtain ⟨before, name⟩ := slot
      cases before with
      | nil => simp [Layout.unparse] at whole
      | cons c before =>
          obtain rfl : c = '/' := by
            simpa [Layout.unparse] using congrArg List.head? whole
          simp [Layout.pieces, List.prefix_cons_iff]

/-- No value brings a slash into the path, and none is a dot segment or part of one. -/
def ValuesStay (filled : List Piece) : Prop :=
  (∀ p ∈ Url.pathOf Prod.fst filled, p.1 = '/' → p.2 = none) ∧
    ∀ segment ∈ Url.segmentsOf Prod.fst (Url.pathOf Prod.fst filled), (∃ p ∈ segment, p.2.isSome) → ¬IsDots segment

theorem harmless_iff_stay {layout : Layout Char} {template : String} {values : List Char → Option (List Char)}
    (reads : layout.Reads '{' '}' template.toList) (slash : ['/'] <+: template.toList)
    (inside : ∀ c name, (c, some name) ∈ layout.pieces values → Url.endsPath c = false) :
    Harmless target (templateSegments template layout) (layout.pieces values) ↔
      (∀ c ∈ target.host.toList, Url.endsAuthority c = false) ∧ ValuesStay (layout.pieces values) := by
  obtain ⟨more, text⟩ := filled_slash values reads slash
  have relative : ¬isAbsolute (textOf (layout.pieces values)) = true := by
    intro absolute
    rcases Bool.or_eq_true _ _ |>.mp absolute with scheme | scheme
    · obtain ⟨x, other⟩ := (stripPrefix?_isSome).mp scheme
      cases text.trans other.symm
    · obtain ⟨x, other⟩ := (stripPrefix?_isSome).mp scheme
      cases text.trans other.symm
  have given {t : String} (slash : ['/'] <+: t.toList) : leadingSep t = "" :=
    if_pos ((stripPrefix?_isSome).mpr (by simpa using slash))
  have owned : ((Url.pathOf Prod.fst (layout.pieces values)).countP fun p => p.1 == '/' && p.2.isNone) =
      templateSegments template layout := by
    rw [count_own inside, own_pieces, templateSegments, given slash]
    rfl
  rw [Harmless, if_neg relative, given ⟨more, text⟩, KeepsSegments, ValuesStay]
  refine and_congr_right fun _ => and_congr ?_ Iff.rfl
  change _ + ((Url.pathOf Prod.fst (layout.pieces values)).countP fun p => p.1 == '/' && p.2.isNone) = _ ↔ _
  rw [owned, Nat.add_eq_right, List.countP_eq_zero]
  refine forall₂_congr fun p _ => ?_
  obtain ⟨c, slot⟩ := p
  cases slot <;> simp

theorem plain_stay {filled : List Piece}
    (plain : ∀ c name, (c, some name) ∈ filled → c ≠ '/' ∧ c ≠ '.') : ValuesStay filled := by
  constructor
  · rintro ⟨c, slot⟩ member is
    cases slot with
    | none => rfl
    | some name => exact absurd is (plain c name (List.takeWhile_subset _ member)).1
  · rintro segment inPath ⟨⟨c, slot⟩, member, valued⟩ dots
    obtain ⟨name, rfl⟩ := Option.isSome_iff_exists.mp valued
    have noDot := (plain c name (Url.mem_of_mem_segmentsOf inPath member)).2
    have dot : c ∈ (textOf segment).toList := by
      rw [textOf, String.toList_ofList]
      exact List.mem_map_of_mem member
    rcases dots with one | two
    · simp [one, noDot] at dot
    · simp [two, noDot] at dot

theorem alphabet_inside {cls : ParamClass} {c : Char} (closed : ∀ allowed, cls ≠ .enum allowed)
    (alphabet : Alphabet cls c) : Url.endsPath c = false := by
  by_contra ends
  have special : c = '?' ∨ c = '#' := by simpa [Url.endsPath, or_iff_not_imp_left] using ends
  cases cls with
  | enum allowed => exact closed allowed rfl
  | int => rcases special with rfl | rfl <;> simp [Alphabet] at alphabet
  | safeText | cidr | identifier => rcases special with rfl | rfl <;> cases alphabet

theorem alphabet_plain {cls : ParamClass} {c : Char} (plain : cls = .identifier ∨ cls = .int)
    (alphabet : Alphabet cls c) : c ≠ '/' ∧ c ≠ '.' := by
  rcases plain with rfl | rfl
  · constructor <;> rintro rfl <;> cases alphabet
  · constructor <;> rintro rfl <;> simp [Alphabet] at alphabet

/-! ## Dispatched requests -/

theorem restRequest_url {checks : HeaderChecks} {method : HttpMethod} {path : String}
    {headers : List (String × String)} {body : Option Json} {auth : AuthScheme} {cred : Credential}
    {sent : RestRequest} (ok : restRequest checks target (.http method path headers body auth) cred = .ok sent) :
    sent.url = fullUrl target path := by
  simp only [restRequest, execHttp] at ok
  split at ok
  · obtain ⟨header, -, rfl⟩ := Json.map_eq_ok.mp ok
    rfl
  · cases ok

def apiServer : TransportTarget := ⟨"10.0.0.5", 6443⟩

def readCap (path : String) (params : List (String × ParamClass)) (ordered : (params.map Prod.fst).Pairwise (· < ·)) :
    DeclaredCap where
  cap := {
    name := "orchestrator.k8s.pod.status", version := .new 1 0 0, description := none, compensating := none,
    irreversible := false, readOnly := true, params,
    op := {
      method := .get, path, body := none, command := none, timeoutSecs := none, oid := none, walk := false,
      sorted := keysSorted_of_none }
    ordered }
  auth := .bearer
  transport := .rest

def podStatus : DeclaredCap :=
  readCap "/api/v1/namespaces/{namespace}/pods/{name}" [("name", .identifier), ("namespace", .identifier)] (by decide)

def Sends (d : DeclaredCap) (params : List (String × String)) (url : String) : Prop :=
  ∃ req sent, dispatchRequest sampleTexts [(d.cap.name, d)] "operator" d.cap.name "target://k8s"
      (.object (params.map fun p => (p.1, .string p.2))) 30 = .ok req ∧
    restRequest ⟨fun _ => none, fun _ => none⟩ apiServer req.op (.apiToken "token") = .ok sent ∧ sent.url = url

def page : DeclaredCap := readCap "{page}" [("page", .safeText)] (by decide)

def vm : DeclaredCap := readCap "/vms/{name}" [("name", .safeText)] (by decide)

def pageLayout : Layout Char := ⟨[([], "page".toList)], []⟩

def vmLayout : Layout Char := ⟨[("/vms/".toList, "name".toList)], []⟩

end Daimon.Proof.Driver
