import Daimon.Proof.Vault.References

/-!
# The syntax of references

What `CredentialRef::parse` and `TargetRef::parse` take, and that it is what the references display as.
-/

namespace Daimon.Proof.Vault
open Daimon.Broker Lib

/-! ## The shape of a UUID -/

section Shape
variable {α : Type} [DecidableEq α] {hex : α → Bool} {dash : α} {xs : List α} {x : α}

/-- Five groups of digits, with a dash between each two. -/
inductive Groups (hex : α → Bool) (dash : α) : List α → Prop
  | mk {a b c d e : List α}
      (lengths : a.length = 8 ∧ b.length = 4 ∧ c.length = 4 ∧ d.length = 4 ∧ e.length = 12)
      (digits : ∀ x ∈ a ++ b ++ c ++ d ++ e, hex x = true) :
      Groups hex dash (a ++ dash :: b ++ dash :: c ++ dash :: d ++ dash :: e)

def atDash (i : Nat) : Bool := i == 8 || i == 13 || i == 18 || i == 23

/-- The test of `looks_like_uuid` on one place. -/
def placed (hex : α → Bool) (dash : α) (x : α) (i : Nat) : Bool := if atDash i then x == dash else hex x

theorem atDash_eq_false {i : Nat} : atDash i = false ↔ i ≠ 8 ∧ i ≠ 13 ∧ i ≠ 18 ∧ i ≠ 23 := by
  simp [atDash, and_assoc]

theorem all_placed {k : Nat} (inside : ∀ i, k ≤ i → i < k + xs.length → atDash i = false) :
    ((xs.zipIdx k).all fun p => placed hex dash p.1 p.2) = xs.all hex := by
  induction xs generalizing k with
  | nil => rfl
  | cons x xs ih =>
      have first : atDash k = false := inside k le_rfl (by simp)
      have rest := @ih (k + 1) fun i above below => inside i (by omega) (by simp; omega)
      rw [List.zipIdx_cons, List.all_cons, List.all_cons, rest, placed, first]
      rfl

theorem all_groups {a b c d e : List α} {w x y z : α}
    (lengths : a.length = 8 ∧ b.length = 4 ∧ c.length = 4 ∧ d.length = 4 ∧ e.length = 12) :
    ((a ++ w :: b ++ x :: c ++ y :: d ++ z :: e).zipIdx.all fun p => placed hex dash p.1 p.2) = true ↔
      (∀ x ∈ a ++ b ++ c ++ d ++ e, hex x = true) ∧ w = dash ∧ x = dash ∧ y = dash ∧ z = dash := by
  obtain ⟨la, lb, lc, ld, le⟩ := lengths
  have group {n k : Nat} {xs : List α} (length : xs.length = n) (clean : k + n ≤ 8 ∨ (9 ≤ k ∧ k + n ≤ 13) ∨
      (14 ≤ k ∧ k + n ≤ 18) ∨ (19 ≤ k ∧ k + n ≤ 23) ∨ 24 ≤ k) :
      ((xs.zipIdx k).all fun p => placed hex dash p.1 p.2) = xs.all hex := by
    apply all_placed
    intro i above below
    rw [atDash_eq_false]
    omega
  have mark {k : Nat} (dashed : atDash k = true) (x : α) : placed hex dash x k = true ↔ x = dash := by
    rw [placed, if_pos dashed, beq_iff_eq]
  simp only [List.zipIdx_append, List.all_append, List.zipIdx_cons, List.all_cons, List.length_append, List.length_cons,
    la, lb, lc, ld, Nat.zero_add, Nat.reduceAdd, @group 8 0 a la (by omega), @group 4 9 b lb (by omega),
    @group 4 14 c lc (by omega), @group 4 19 d ld (by omega), @group 12 24 e le (by omega), Bool.and_eq_true,
    @mark 8 rfl, @mark 13 rfl, @mark 18 rfl, @mark 23 rfl, List.all_eq_true, List.forall_mem_append]
  tauto

omit [DecidableEq α] in
theorem exists_split {n : Nat} (longer : n < xs.length) : ∃ a x rest, xs = a ++ x :: rest ∧ a.length = n :=
  ⟨xs.take n, xs[n], xs.drop (n + 1), by simp, by simp; omega⟩

theorem groups_iff :
    (xs.length = 36 ∧ (xs.zipIdx.all fun p => placed hex dash p.1 p.2) = true) ↔ Groups hex dash xs := by
  constructor
  · rintro ⟨long, all⟩
    obtain ⟨a, w, xs, rfl, la⟩ := exists_split (by omega : 8 < xs.length)
    rw [List.length_append, List.length_cons] at long
    obtain ⟨b, x, xs, rfl, lb⟩ := exists_split (by omega : 4 < xs.length)
    rw [List.length_append, List.length_cons] at long
    obtain ⟨c, y, xs, rfl, lc⟩ := exists_split (by omega : 4 < xs.length)
    rw [List.length_append, List.length_cons] at long
    obtain ⟨d, z, e, rfl, ld⟩ := exists_split (by omega : 4 < xs.length)
    rw [List.length_append, List.length_cons] at long
    have lengths : a.length = 8 ∧ b.length = 4 ∧ c.length = 4 ∧ d.length = 4 ∧ e.length = 12 :=
      ⟨la, lb, lc, ld, by omega⟩
    have whole : a ++ w :: (b ++ x :: (c ++ y :: (d ++ z :: e))) = a ++ w :: b ++ x :: c ++ y :: d ++ z :: e := by simp
    rw [whole] at all ⊢
    obtain ⟨digits, rfl, rfl, rfl, rfl⟩ := (all_groups lengths).mp all
    exact .mk lengths digits
  · rintro ⟨lengths, digits⟩
    exact ⟨by simp [lengths], (all_groups lengths).mpr ⟨digits, rfl, rfl, rfl, rfl⟩⟩

omit [DecidableEq α] in
theorem Groups.mem (shaped : Groups hex dash xs) (member : x ∈ xs) : hex x = true ∨ x = dash := by
  obtain ⟨lengths, digits⟩ := shaped
  have digit := digits x
  simp only [List.mem_append, List.mem_cons] at member digit
  tauto

end Shape

section Uuid
variable {text : String} {c : Char} {b : UInt8}

def isHexByte (b : UInt8) : Bool := (0x30 ≤ b && b ≤ 0x39) || (0x61 ≤ b && b ≤ 0x66) || (0x41 ≤ b && b ≤ 0x46)

theorem looksLikeUuid_iff : looksLikeUuid text = true ↔ Groups isAsciiHexDigit '-' text.toList := by
  rw [← groups_iff, looksLikeUuid, Bool.and_eq_true, beq_iff_eq]
  rfl

theorem looksLikeUuidBytes_iff : looksLikeUuidBytes text = true ↔ Groups isHexByte 0x2d (bytesOf text) := by
  rw [← groups_iff, looksLikeUuidBytes, Bool.and_eq_true, beq_iff_eq]
  rfl

theorem isAsciiHexDigit_iff : isAsciiHexDigit c = true ↔
    (48 ≤ c.toNat ∧ c.toNat ≤ 57) ∨ (97 ≤ c.toNat ∧ c.toNat ≤ 102) ∨ (65 ≤ c.toNat ∧ c.toNat ≤ 70) := by
  simp [isAsciiHexDigit, Char.isDigit, Char.le_def, UInt32.le_iff_toNat_le, or_assoc]

theorem isHexByte_iff : isHexByte b = true ↔
    (48 ≤ b.toNat ∧ b.toNat ≤ 57) ∨ (97 ≤ b.toNat ∧ b.toNat ≤ 102) ∨ (65 ≤ b.toNat ∧ b.toNat ≤ 70) := by
  simp [isHexByte, UInt8.le_iff_toNat_le, or_assoc]

theorem toNat_ascii (ascii : c.toNat < 128) : (UInt8.ofNat c.toNat).toNat = c.toNat :=
  UInt8.toNat_ofNat_of_lt' (Nat.lt_trans ascii (by decide))

theorem isHexByte_ascii (ascii : c.toNat < 128) : isHexByte (UInt8.ofNat c.toNat) = isAsciiHexDigit c := by
  rw [Bool.eq_iff_iff, isHexByte_iff, isAsciiHexDigit_iff, toNat_ascii ascii]

theorem dash_ascii (ascii : c.toNat < 128) : UInt8.ofNat c.toNat = 0x2d ↔ c = '-' := by
  rw [← UInt8.toNat_inj, toNat_ascii ascii, ← Char.toNat_inj]
  rfl

theorem placed_ascii (ascii : c.toNat < 128) (i : Nat) :
    placed isHexByte 0x2d (UInt8.ofNat c.toNat) i = placed isAsciiHexDigit '-' c i := by
  rw [placed, placed, isHexByte_ascii ascii, Bool.beq_eq_decide_eq, Bool.beq_eq_decide_eq]
  simp only [dash_ascii ascii]

theorem looksLikeUuid_ascii (shaped : looksLikeUuid text = true) : ∀ c ∈ text.toList, c.toNat < 128 := by
  intro c member
  rcases ((looksLikeUuid_iff).mp shaped).mem member with digit | rfl
  · rw [isAsciiHexDigit_iff] at digit
    omega
  · decide

theorem looksLikeUuidBytes_ascii (shaped : looksLikeUuidBytes text = true) : ∀ c ∈ text.toList, c.toNat < 128 := by
  intro c member
  by_contra wide
  obtain ⟨b, inside⟩ := List.exists_mem_of_ne_nil _ (@String.utf8EncodeChar_ne_nil c)
  have high := UInt8.le_iff_toNat_le.mp (high_of_mem_utf8EncodeChar (Nat.le_of_not_lt wide) inside)
  have low : b.toNat < 128 := by
    rcases ((looksLikeUuidBytes_iff).mp shaped).mem (List.mem_flatMap.mpr ⟨c, member, inside⟩) with digit | rfl
    · rw [isHexByte_iff] at digit
      omega
    · decide
  exact absurd high (Nat.not_le.mpr low)

/-- The test over the bytes is the test over the characters. -/
theorem looksLikeUuidBytes_eq (text : String) : looksLikeUuidBytes text = looksLikeUuid text := by
  by_cases ascii : ∀ c ∈ text.toList, c.toNat < 128
  · have same : (text.toList.map fun c => UInt8.ofNat c.toNat).zipIdx.all (fun p => placed isHexByte 0x2d p.1 p.2) =
        text.toList.zipIdx.all fun p => placed isAsciiHexDigit '-' p.1 p.2 := by
      rw [List.zipIdx_map, List.all_map, Bool.eq_iff_iff, List.all_eq_true, List.all_eq_true]
      apply forall₂_congr
      intro p member
      rw [← placed_ascii (ascii p.1 (List.fst_mem_of_mem_zipIdx member)) p.2]
      rfl
    rw [Bool.eq_iff_iff, looksLikeUuidBytes_iff, looksLikeUuid_iff, ← groups_iff, ← groups_iff, bytesOf_ascii ascii,
      List.length_map, same]
  · rw [eq_false_of_ne_true (mt looksLikeUuidBytes_ascii ascii), eq_false_of_ne_true (mt looksLikeUuid_ascii ascii)]

end Uuid

/-! ## Credential references -/

section Credential
variable {s name organization collection item : String} {r : CredentialRef}

/-- The texts of the references, by their scheme and their segments. -/
inductive CredentialText : String → CredentialRef → Prop
  | named {name : String} (segment : Segment name) (other : ¬Groups isAsciiHexDigit '-' name.toList) :
      CredentialText ("vault://" ++ name) (.named name)
  | uuid {id : String} (segment : Segment id) (shaped : Groups isAsciiHexDigit '-' id.toList) :
      CredentialText ("vault://" ++ id) (.uuid id)
  | path {organization collection item : String} (first : Segment organization) (second : Segment collection)
      (third : Segment item) :
      CredentialText ("vault://" ++ pathText organization collection item) (.path organization collection item)

theorem parse_segment (segment : Segment name) : CredentialRef.parse ("vault://" ++ name) =
    .ok (if looksLikeUuid name then .uuid name else .named name) := by
  have pieces : name.toList.splitOn '/' = [name.toList] := (split_single).mpr ⟨rfl, segment.2⟩
  have some : name.toList ≠ [] := fun none => segment.1 (String.toList_eq_nil_iff.mp none)
  simp only [CredentialRef.parse, stripPrefix?_append, pieces, if_neg some, String.ofList_toList]
  split <;> rfl

theorem parse_path (first : Segment organization) (second : Segment collection) (third : Segment item) :
    CredentialRef.parse ("vault://" ++ pathText organization collection item) =
      .ok (.path organization collection item) := by
  have pieces := (split_path).mpr ⟨first.2, second.2, third.2, rfl⟩
  have some : ¬(organization.toList = [] ∨ collection.toList = [] ∨ item.toList = []) := by
    simp [first.1, second.1, third.1]
  simp only [CredentialRef.parse, stripPrefix?_append, pieces, if_neg some, String.ofList_toList]

theorem credential_parse_iff : CredentialRef.parse s = .ok r ↔ CredentialText s r := by
  constructor
  · intro parsed
    obtain ⟨rest, rfl⟩ : ∃ rest, s = "vault://" ++ rest := by
      cases stripped : stripPrefix? "vault://" s with
      | none => simp [CredentialRef.parse, stripped] at parsed
      | some rest => exact ⟨rest, stripPrefix?_eq_some stripped⟩
    have cases := parse_parsed rest
    rw [parsed] at cases
    cases cases with
    | named segment other => exact .named segment (by simp [← looksLikeUuid_iff, other])
    | uuid segment shaped => exact .uuid segment ((looksLikeUuid_iff).mp shaped)
    | path first second third whole =>
        rw [whole]
        exact .path first second third
  · intro text
    cases text with
    | named segment other => rw [parse_segment segment, if_neg (by rwa [looksLikeUuid_iff])]
    | uuid segment shaped => rw [parse_segment segment, if_pos ((looksLikeUuid_iff).mpr shaped)]
    | path first second third => exact parse_path first second third

theorem CredentialText.display (text : CredentialText s r) : r.display = s := by
  cases text with
  | named => rfl
  | uuid => rfl
  | path => simp [CredentialRef.display, pathText, String.append_assoc]

end Credential

/-! ## Target references -/

theorem target_parse_iff {s : String} {r : TargetRef} :
    TargetRef.parse s = .ok r ↔ Segment r.name ∧ s = "target://" ++ r.name := by
  constructor
  · intro parsed
    cases stripped : stripPrefix? "target://" s with
    | none => simp [TargetRef.parse, stripped] at parsed
    | some rest =>
        simp only [TargetRef.parse, stripped] at parsed
        split_ifs at parsed with empty slash
        cases parsed
        exact ⟨⟨empty, slash⟩, stripPrefix?_eq_some stripped⟩
  · rintro ⟨segment, rfl⟩
    simp only [TargetRef.parse, stripPrefix?_append, if_neg segment.1, if_neg segment.2]

/-- What is parsed is displayed again, and nothing else is parsed than what the grammars say. -/
theorem references_parse :
    (∀ text, looksLikeUuidBytes text = true ↔ Groups isAsciiHexDigit '-' text.toList) ∧
      (∀ s r, CredentialRef.parse s = .ok r ↔ CredentialText s r) ∧
      (∀ s r, CredentialRef.parse s = .ok r → r.display = s ∧ CredentialRef.parse r.display = .ok r) ∧
      (∀ s r, TargetRef.parse s = .ok r ↔ Segment r.name ∧ s = "target://" ++ r.name) ∧
      ∀ s r, TargetRef.parse s = .ok r → r.display = s ∧ TargetRef.parse r.display = .ok r := by
  refine ⟨?_, fun s r => credential_parse_iff, ?_, fun s r => target_parse_iff, ?_⟩
  · intro text
    rw [looksLikeUuidBytes_eq, looksLikeUuid_iff]
  · intro s r parsed
    have display := ((credential_parse_iff).mp parsed).display
    exact ⟨display, display.symm ▸ parsed⟩
  · intro s r parsed
    have display : r.display = s := ((target_parse_iff).mp parsed).2.symm
    exact ⟨display, display.symm ▸ parsed⟩

theorem refs_of_lab :
    (CredentialRef.path "acme" "lab" "core-sw").display = "vault://acme/lab/core-sw" ∧
      TargetRef.parse (TargetRef.mk "core-sw").display = .ok ⟨"core-sw"⟩ :=
  ⟨((references_parse).2.2.1 "vault://acme/lab/core-sw" (.path "acme" "lab" "core-sw") (by decide)).1,
    ((references_parse).2.2.2.2 "target://core-sw" ⟨"core-sw"⟩ (by decide)).2⟩

end Daimon.Proof.Vault
