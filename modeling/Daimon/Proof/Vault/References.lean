import Daimon.App.SecretResolve
import Daimon.Lib.Lists
import Daimon.Lib.Text
import Daimon.Vault.Client

/-!
# The two readings of a reference

The settings take what stands after `vault://` as a name. The broker parses it: a text without a slash that is
not shaped like a UUID is a name, of three segments the last one is, and nothing else has a name.
-/

namespace Daimon.Proof.Vault
open Daimon.Core Daimon.Broker Daimon.Vault Daimon.App Lib

variable {t t' : Credentials} {name text : String} {row : CredentialRow} {collation : String → String → Bool}

/-! ## Rows -/

theorem byName_eq_some : t.byName name = some row ↔ row ∈ t.rows ∧ row.name = name :=
  find?_key_eq_some t.names

theorem findMetadata_eq (t : Credentials) (name : String) : findMetadata collation t name = t.byName name :=
  find?_key_perm t.names (List.mergeSort_perm _ _)

theorem rows_of_create {id : Uuid} {cred : Credential} (made : create t id name cred = .ok t') :
    t'.rows = ⟨id, name, cred.kind, cred⟩ :: t.rows := by
  unfold create Credentials.insert at made
  split_ifs at made with fresh
  cases made
  rfl

theorem created {id : Uuid} {cred : Credential} (made : create t id name cred = .ok t') :
    t'.byName name = some ⟨id, name, cred.kind, cred⟩ := by
  rw [byName_eq_some, rows_of_create made]
  exact ⟨List.mem_cons_self, rfl⟩

theorem row_eq_of_id {other : CredentialRow} (member : row ∈ t.rows) (member' : other ∈ t.rows)
    (same : row.id = other.id) : row = other :=
  List.inj_on_of_nodup_map t.ids member member' same

/-! ## Parsing -/

theorem stripPrefix?_append (scheme rest : String) : stripPrefix? scheme (scheme ++ rest) = some rest := by
  simp [stripPrefix?]

theorem stripPrefix?_eq_some {scheme rest : String} (stripped : stripPrefix? scheme text = some rest) :
    text = scheme ++ rest := by
  unfold stripPrefix? at stripped
  split at stripped
  · rename_i front
    cases stripped
    obtain ⟨more, whole⟩ := front
    rw [← String.toList_inj, String.toList_append, ← whole]
    simp
  · cases stripped

def pathText (organization collection item : String) : String :=
  organization ++ "/" ++ collection ++ "/" ++ item

def Segment (text : String) : Prop := text ≠ "" ∧ '/' ∉ text.toList

theorem split_path {rest organization collection item : String} :
    rest.toList.splitOn '/' = [organization.toList, collection.toList, item.toList] ↔
      '/' ∉ organization.toList ∧ '/' ∉ collection.toList ∧ '/' ∉ item.toList ∧
        rest = pathText organization collection item := by
  have whole : ['/'].intercalate [organization.toList, collection.toList, item.toList] = rest.toList ↔
      rest = pathText organization collection item := by
    rw [← String.toList_inj, pathText, eq_comm]
    simp [List.intercalate]
  rw [splitOn_eq_iff, whole]
  simp [and_assoc]

theorem split_single {rest single : String} :
    rest.toList.splitOn '/' = [single.toList] ↔ rest = single ∧ '/' ∉ single.toList := by
  have whole : ['/'].intercalate [single.toList] = rest.toList ↔ rest = single := by
    rw [← String.toList_inj, eq_comm]
    simp [List.intercalate]
  rw [splitOn_eq_iff, whole]
  simp [and_comm]

inductive Parsed (rest : String) : Except CredentialRef.ParseError CredentialRef → Prop
  | named (segment : Segment rest) (name : looksLikeUuid rest = false) : Parsed rest (.ok (.named rest))
  | uuid (segment : Segment rest) (shaped : looksLikeUuid rest = true) : Parsed rest (.ok (.uuid rest))
  | path {organization collection item : String} (first : Segment organization) (second : Segment collection)
      (third : Segment item) (whole : rest = pathText organization collection item) :
      Parsed rest (.ok (.path organization collection item))
  | invalid (single : ¬Segment rest)
      (path : ∀ organization collection item, Segment organization → Segment collection → Segment item →
        rest ≠ pathText organization collection item) : Parsed rest (.error .invalidShape)

theorem not_segment_pathText (organization collection item : String) :
    ¬Segment (pathText organization collection item) := by
  rintro ⟨-, clean⟩
  exact clean (by simp [pathText])

theorem parse_parsed (rest : String) : Parsed rest (CredentialRef.parse ("vault://" ++ rest)) := by
  simp only [CredentialRef.parse, stripPrefix?_append]
  split
  · rename_i single pieces
    obtain ⟨rfl, clean⟩ := (split_single).mp
      (by simpa using pieces : rest.toList.splitOn '/' = [(String.ofList single).toList])
    rw [String.toList_ofList] at clean
    split
    · rename_i empty
      subst empty
      refine .invalid (fun segment => segment.1 rfl) fun organization collection item _ _ _ whole => ?_
      have lengths := congrArg (·.toList.length) whole
      simp [pathText] at lengths
    · rename_i some
      have segment : Segment (String.ofList single) := ⟨by simpa [← String.toList_inj] using some, by simpa using clean⟩
      split
      · rename_i shaped
        exact .uuid segment shaped
      · rename_i other
        exact .named segment (eq_false_of_ne_true other)
  · rename_i organization collection item pieces
    obtain ⟨first, second, third, rfl⟩ := (split_path).mp (by simpa using pieces : rest.toList.splitOn '/' =
      [(String.ofList organization).toList, (String.ofList collection).toList, (String.ofList item).toList])
    split
    · rename_i empty
      refine .invalid (not_segment_pathText _ _ _) fun o c i hasO hasC hasI whole => ?_
      have again := (split_path).mpr ⟨hasO.2, hasC.2, hasI.2, whole⟩
      rw [pieces] at again
      obtain ⟨rfl, rfl, rfl⟩ := by simpa using again
      rcases empty with none | none | none
      · exact hasO.1 (String.toList_eq_nil_iff.mp none)
      · exact hasC.1 (String.toList_eq_nil_iff.mp none)
      · exact hasI.1 (String.toList_eq_nil_iff.mp none)
    · rename_i some
      simp only [not_or] at some
      refine .path ⟨?_, first⟩ ⟨?_, second⟩ ⟨?_, third⟩ rfl
      · simpa [← String.toList_inj] using some.1
      · simpa [← String.toList_inj] using some.2.1
      · simpa [← String.toList_inj] using some.2.2
  · rename_i notSingle notPath
    refine .invalid (fun segment => ?_) fun o c i hasO hasC hasI whole => ?_
    · exact notSingle _ ((split_single).mpr ⟨rfl, segment.2⟩)
    · exact notPath _ _ _ ((split_path).mpr ⟨hasO.2, hasC.2, hasI.2, whole⟩)

theorem item_inj {o c i o' c' i' : String} (clean : '/' ∉ o.toList ∧ '/' ∉ c.toList ∧ '/' ∉ i.toList)
    (clean' : '/' ∉ o'.toList ∧ '/' ∉ c'.toList ∧ '/' ∉ i'.toList) (same : pathText o c i = pathText o' c' i') :
    i = i' := by
  have split := (split_path).mpr ⟨clean.1, clean.2.1, clean.2.2, same.symm⟩
  rw [(split_path).mpr ⟨clean'.1, clean'.2.1, clean'.2.2, rfl⟩] at split
  simp only [List.cons.injEq, and_true] at split
  exact String.toList_inj.mp split.2.2.symm

/-! ## Selection -/

theorem settingsSelects_eq (t : Credentials) (rest : String) :
    settingsSelects collation t ("vault://" ++ rest) = (t.byName rest).map CredentialRow.id := by
  rw [settingsSelects, stripPrefix?_append, Option.bind_some, findMetadata_eq]

theorem selected_row {ref : CredentialRef} {name : String} (named : ref.name = some name) :
    (match resolveRow t ref with
      | .ok row => some row.id
      | .error _ => none) = (t.byName name).map CredentialRow.id := by
  rw [resolveRow, named, Option.bind_some]
  cases t.byName name <;> rfl

theorem brokerSelects_name (segment : Segment name) (other : looksLikeUuid name = false) :
    brokerSelects t ("vault://" ++ name) = (t.byName name).map CredentialRow.id := by
  have parsed := parse_parsed name
  unfold brokerSelects
  generalize CredentialRef.parse ("vault://" ++ name) = parse at parsed
  cases parsed with
  | named => exact selected_row rfl
  | uuid _ shaped => cases other.symm.trans shaped
  | path _ _ _ whole => exact absurd (whole ▸ segment) (not_segment_pathText _ _ _)
  | invalid single => exact absurd segment single

theorem brokerSelects_path {o c i : String} (hasO : Segment o) (hasC : Segment c) (hasI : Segment i) :
    brokerSelects t ("vault://" ++ pathText o c i) = (t.byName i).map CredentialRow.id := by
  have parsed := parse_parsed (pathText o c i)
  unfold brokerSelects
  generalize CredentialRef.parse ("vault://" ++ pathText o c i) = parse at parsed
  cases parsed with
  | named segment => exact absurd segment (not_segment_pathText _ _ _)
  | uuid segment => exact absurd segment (not_segment_pathText _ _ _)
  | path first second third whole =>
      rw [item_inj ⟨hasO.2, hasC.2, hasI.2⟩ ⟨first.2, second.2, third.2⟩ whole]
      exact selected_row rfl
  | invalid _ path => exact absurd rfl (path o c i hasO hasC hasI)

theorem brokerSelects_cases {rest : String} {id : Uuid} (selected : brokerSelects t ("vault://" ++ rest) = some id) :
    (Segment rest ∧ looksLikeUuid rest = false) ∨
      ∃ o c i, Segment o ∧ Segment c ∧ Segment i ∧ rest = pathText o c i := by
  have parsed := parse_parsed rest
  unfold brokerSelects at selected
  generalize CredentialRef.parse ("vault://" ++ rest) = parse at parsed selected
  cases parsed with
  | named segment other => exact Or.inl ⟨segment, other⟩
  | path first second third whole => exact Or.inr ⟨_, _, _, first, second, third, whole⟩
  | uuid => cases selected
  | invalid => cases selected

theorem unschemed (none : stripPrefix? "vault://" text = none) : brokerSelects t text = .none := by
  rw [brokerSelects, CredentialRef.parse, none]

/-! ## What is resolved is what is selected -/

theorem uncached_resolve {ref : CredentialRef} (now : Nat) (selected : resolveRow t ref = .ok row) :
    ∃ c, run Client.step (Client.new now t) [.resolve ref, .step 0 .lock, .step 0 .row, .step 0 .lock] = some c ∧
      c.calls = [.resolve ref row.name (.returned (.ok row.payload))] := by
  unfold resolveRow at selected
  cases named : ref.name with
  | none =>
      rw [named] at selected
      cases selected
  | some name =>
      cases found : t.byName name with
      | none =>
          rw [named, Option.bind_some, found] at selected
          cases selected
      | some row =>
          rw [named, Option.bind_some, found] at selected
          cases selected
          obtain rfl := ((byName_eq_some).mp found).2
          simp [run, Client.step, named, Client.start, Client.new, Client.stepCall, Client.stepResolve, Client.lookup,
            Client.query, Client.apply, Lru.get, Lru.peek, Lru.empty, found]

theorem settings_resolve {id : Uuid} (selected : settingsSelects collation t text = some id) :
    resolveMaybeRef collation t text =
      match reveal t id with
      | .ok (.apiToken token) => some token
      | _ => none := by
  obtain ⟨name, stripped, selected⟩ := Option.bind_eq_some_iff.mp selected
  obtain ⟨row, found, rfl⟩ := Option.map_eq_some_iff.mp selected
  rw [resolveMaybeRef, stripped]
  change resolveVaultApiToken collation t name = _
  unfold resolveVaultApiToken
  split
  · rename_i row' found'
    cases found.symm.trans found'
    rfl
  · rename_i absent
    cases found.symm.trans absent

/-! ## When the paths agree -/

/-- The reference to a stored name selects its credential on both paths exactly if the name is not empty, has no
slash and is not shaped like a UUID. -/
theorem name_referable_iff (found : t.byName name = some row) :
    ((∃ ref, CredentialRef.parse ("vault://" ++ name) = .ok ref) ∧
      brokerSelects t ("vault://" ++ name) = some row.id ∧
      settingsSelects collation t ("vault://" ++ name) = some row.id) ↔
    name ≠ "" ∧ '/' ∉ name.toList ∧ looksLikeUuid name = false := by
  constructor
  · rintro ⟨-, selected, -⟩
    rcases brokerSelects_cases selected with ⟨segment, other⟩ | ⟨o, c, i, hasO, hasC, hasI, rfl⟩
    · exact ⟨segment.1, segment.2, other⟩
    · -- the row of the item would be that of the whole path
      rw [brokerSelects_path hasO hasC hasI] at selected
      obtain ⟨other, found', same⟩ := Option.map_eq_some_iff.mp selected
      rw [byName_eq_some] at found found'
      obtain rfl := row_eq_of_id found'.1 found.1 same
      have clean := hasI.2
      rw [← found'.2, found.2] at clean
      exact absurd (by simp [pathText]) clean
  · rintro ⟨some, clean, other⟩
    have segment : Segment name := ⟨some, clean⟩
    refine ⟨?_, ?_, ?_⟩
    · have parsed := parse_parsed name
      cases h : CredentialRef.parse ("vault://" ++ name) with
      | ok ref => exact ⟨ref, rfl⟩
      | error e =>
          rw [h] at parsed
          cases parsed with
          | invalid single => exact absurd segment single
    · rw [brokerSelects_name segment other, found]
      rfl
    · rw [settingsSelects_eq, found]
      rfl

def Ambiguous (t : Credentials) (text : String) : Prop :=
  ∃ o c i, Segment o ∧ Segment c ∧ Segment i ∧ text = "vault://" ++ pathText o c i ∧
    (t.byName i).isSome ∧ (t.byName (pathText o c i)).isSome

theorem selections_agree_iff (t : Credentials) (text : String) :
    (∀ a b, brokerSelects t text = some a → settingsSelects collation t text = some b → a = b) ↔
      ¬Ambiguous t text := by
  constructor
  · rintro agree ⟨o, c, i, hasO, hasC, hasI, rfl, item, path⟩
    obtain ⟨row, found⟩ := Option.isSome_iff_exists.mp item
    obtain ⟨row', found'⟩ := Option.isSome_iff_exists.mp path
    have same : row.id = row'.id := by
      apply agree
      · rw [brokerSelects_path hasO hasC hasI, found]
        rfl
      · rw [settingsSelects_eq, found']
        rfl
    rw [byName_eq_some] at found found'
    obtain rfl := row_eq_of_id found.1 found'.1 same
    have clean := hasI.2
    rw [← found.2, found'.2] at clean
    exact clean (by simp [pathText])
  · intro clear a b selected selected'
    cases stripped : stripPrefix? "vault://" text with
    | none => cases (unschemed stripped).symm.trans selected
    | some rest =>
        obtain rfl := stripPrefix?_eq_some stripped
        rw [settingsSelects_eq] at selected'
        rcases brokerSelects_cases selected with ⟨segment, other⟩ | ⟨o, c, i, hasO, hasC, hasI, rfl⟩
        · rw [brokerSelects_name segment other] at selected
          exact Option.some.inj (selected.symm.trans selected')
        · rw [brokerSelects_path hasO hasC hasI] at selected
          refine absurd ⟨o, c, i, hasO, hasC, hasI, rfl, ?_, ?_⟩ clear
          · exact Option.isSome_of_mem (Option.map_eq_some_iff.mp selected).choose_spec.1
          · exact Option.isSome_of_mem (Option.map_eq_some_iff.mp selected').choose_spec.1

/-- The reference to a name that `create` accepted parses and selects its credential on both paths exactly if the
name is not empty, has no slash and is not shaped like a UUID; and the paths select two credentials for a text
exactly if it has three segments, and their path and its last segment are both names in the vault. -/
theorem references_uniform_iff (collation : String → String → Bool) :
    (∀ (t t' : Credentials) (id : Uuid) (name : String) (cred : Credential), create t id name cred = .ok t' →
      (((∃ ref, CredentialRef.parse ("vault://" ++ name) = .ok ref) ∧
        brokerSelects t' ("vault://" ++ name) = some id ∧
        settingsSelects collation t' ("vault://" ++ name) = some id) ↔
      name ≠ "" ∧ '/' ∉ name.toList ∧ looksLikeUuid name = false)) ∧
    ∀ (t : Credentials) (text : String),
      (∀ a b, brokerSelects t text = some a → settingsSelects collation t text = some b → a = b) ↔
        ¬Ambiguous t text :=
  ⟨fun _ _ _ _ _ made => name_referable_iff (created made), selections_agree_iff⟩

/-! ## A name and a path that ends in it -/

def lexical (a b : String) : Bool := decide (a ≤ b)

def oneCredential : Credentials := ⟨[⟨1, "edge", .apiToken, .apiToken "a"⟩], by decide, by decide⟩

def twoCredentials : Credentials :=
  ⟨[⟨2, "infra/network/edge", .apiToken, .apiToken "b"⟩, ⟨1, "edge", .apiToken, .apiToken "a"⟩],
    by decide, by decide⟩

theorem edge_referable : brokerSelects oneCredential "vault://edge" = some 1 ∧
    settingsSelects lexical oneCredential "vault://edge" = some 1 := by
  have made : create .empty 1 "edge" (.apiToken "a") = .ok oneCredential := rfl
  exact (((references_uniform_iff lexical).1 _ _ _ _ _ made).mpr (by decide +kernel)).2

/-- `create` accepts a name with slashes, and the paths take its reference to two credentials. -/
theorem path_name_splits : create oneCredential 2 "infra/network/edge" (.apiToken "b") = .ok twoCredentials ∧
    brokerSelects twoCredentials "vault://infra/network/edge" = some 1 ∧
    settingsSelects lexical twoCredentials "vault://infra/network/edge" = some 2 := by
  refine ⟨rfl, by decide +kernel, ?_⟩
  have whole : "vault://infra/network/edge" = "vault://" ++ "infra/network/edge" := by decide
  rw [whole, settingsSelects_eq]
  rfl

end Daimon.Proof.Vault
