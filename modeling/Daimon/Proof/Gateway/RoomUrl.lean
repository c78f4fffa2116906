import Daimon.Gateway.Matrix

/-!
# Room ids in request paths
-/

namespace Daimon.Proof.Gateway
open Daimon.Gateway.Matrix Lib

section Urlencode
variable {s t : String} {c : Char}

theorem isAlphanum_ascii (alphanum : c.isAlphanum = true) : c.toNat < 128 := by
  change ((c.isUpper || c.isLower) || c.isDigit) = true at alphanum
  rw [Bool.or_eq_true, Bool.or_eq_true] at alphanum
  rcases alphanum with (upper | lower) | digit
  · have top : c.val ≤ 'Z'.val := (of_decide_eq_true upper).2
    exact Nat.lt_of_le_of_lt top (by decide)
  · have top : c.val ≤ 'z'.val := of_decide_eq_true (Bool.and_elim_right lower)
    exact Nat.lt_of_le_of_lt top (by decide)
  · have top : c.val ≤ '9'.val := of_decide_eq_true (Bool.and_elim_right digit)
    exact Nat.lt_of_le_of_lt top (by decide)

theorem isUnreserved_ascii (unreserved : isUnreserved c = true) : c.toNat < 128 := by
  rw [isUnreserved, Bool.or_eq_true, List.contains_iff_mem] at unreserved
  rcases unreserved with alphanum | mark
  · exact isAlphanum_ascii alphanum
  · simp only [List.mem_cons, List.not_mem_nil, or_false] at mark
    rcases mark with rfl | rfl | rfl | rfl <;> decide

theorem keepable_unreserved : Percent.Keepable fun b => isUnreserved (Char.ofNat b.toNat) := by
  intro b (kept : isUnreserved (Char.ofNat b.toNat) = true)
  constructor
  · have ascii := isUnreserved_ascii kept
    rw [Percent.toNat_byte] at ascii
    exact UInt8.lt_iff_toNat_lt.mpr ascii
  · intro percent
    rw [percent] at kept
    cases kept

theorem toList_urlencode (s : String) :
    (urlencode s).toList = Percent.encode (fun b => isUnreserved (Char.ofNat b.toNat)) (bytesOf s) :=
  String.toList_ofList

theorem escaped_urlencode (s : String) : Percent.Escaped isUnreserved (urlencode s).toList := by
  rw [toList_urlencode]
  exact Percent.escaped_encode (fun b kept => kept) (bytesOf s)

theorem decode_urlencode (s : String) : Percent.decode (urlencode s).toList = some (bytesOf s) := by
  rw [toList_urlencode, Percent.decode_encode keepable_unreserved]

theorem urlencode_injective (same : urlencode s = urlencode t) : s = t := by
  apply bytesOf_injective
  apply Percent.encode_injective keepable_unreserved
  rw [← toList_urlencode, ← toList_urlencode, same]

theorem not_mem_urlencode (delimiter : c = '/' ∨ c = '?' ∨ c = '#') : c ∉ (urlencode s).toList := by
  intro member
  have cases := (escaped_urlencode s).mem member
  rcases delimiter with rfl | rfl | rfl <;> revert cases <;> decide

end Urlencode

/-! ## The request path -/

section Url
variable {homeserver : String} {p q : Put} {c : Char}

/-- The segments behind the homeserver's address. -/
def roomSegments (p : Put) : List String :=
  ["_matrix", "client", "v3", "rooms", urlencode p.room, "send", "m.room.message", toString p.txn.toNat]

theorem isDigit_of_mem_toString {n : Nat} (member : c ∈ (toString n).toList) : c.isDigit = true := by
  rw [Nat.toString_eq_ofList_toDigits, String.toList_ofList] at member
  exact Nat.isDigit_of_mem_toDigits (by decide) (by decide) member

theorem clean_roomSegments : ∀ segment ∈ roomSegments p, '/' ∉ segment.toList := by
  have room : '/' ∉ (urlencode p.room).toList := not_mem_urlencode (Or.inl rfl)
  have digits : '/' ∉ (toString p.txn.toNat).toList := fun member => absurd (isDigit_of_mem_toString member) (by decide)
  simp only [roomSegments, List.forall_mem_cons]
  exact ⟨by decide, by decide, by decide, by decide, room, by decide, by decide, digits, by simp⟩

theorem toList_url (homeserver : String) (p : Put) :
    (p.url homeserver).toList = homeserver.toList ++ '/' :: ['/'].intercalate ((roomSegments p).map String.toList) := by
  simp [Put.url, roomSegments]

theorem splitOn_url (homeserver : String) (p : Put) : (p.url homeserver).toList.splitOn '/' =
    homeserver.toList.splitOn '/' ++ (roomSegments p).map String.toList := by
  have clean : ∀ segment ∈ (roomSegments p).map String.toList, '/' ∉ segment := by
    simpa using @clean_roomSegments p
  rw [toList_url, List.splitOn_append_cons_self, List.splitOn_intercalate '/' clean (by simp [roomSegments])]

theorem mem_url_iff (mark : c = '?' ∨ c = '#') : c ∈ (p.url homeserver).toList ↔ c ∈ homeserver.toList := by
  have room := @not_mem_urlencode p.room c (Or.inr mark)
  have digits : c ∉ (toString p.txn.toNat).toList := by
    intro member
    have digit := isDigit_of_mem_toString member
    rcases mark with rfl | rfl <;> cases digit
  have literals : c ∉ "/_matrix/client/v3/rooms/".toList ∧ c ∉ "/send/m.room.message/".toList := by
    rcases mark with rfl | rfl <;> decide
  simp only [Put.url, String.toList_append, List.mem_append, room, digits, literals, or_false]

theorem url_eq_iff : p.url homeserver = q.url homeserver ↔ p.room = q.room ∧ p.txn = q.txn := by
  constructor
  · intro same
    have segments := splitOn_url homeserver p
    rw [same, splitOn_url homeserver q, List.append_cancel_left_eq] at segments
    have names : roomSegments q = roomSegments p := List.map_injective_iff.mpr (fun _ _ => String.toList_inj.mp) segments
    simp only [roomSegments, List.cons.injEq, true_and, and_true] at names
    refine ⟨(urlencode_injective names.1).symm, ?_⟩
    have digits := congrArg (fun text => Nat.ofDigitChars 10 text.toList 0) names.2
    simp only [Nat.toString_eq_ofList_toDigits, String.toList_ofList, Nat.ofDigitChars_ten_toDigits] at digits
    exact UInt64.toNat_inj.mp digits.symm
  · rintro ⟨room, txn⟩
    rw [Put.url, Put.url, room, txn]

/-- The homeserver that drops a known transaction id in a room drops what is put to a known address. -/
theorem keep_eq_by_url (homeserver : String) (kept : List Put) (p : Put) :
    keep kept p = if kept.any fun q => q.url homeserver = p.url homeserver then kept else kept ++ [p] := by
  simp only [keep, url_eq_iff, Bool.decide_and]

/-- A room id is one segment of the request path, whatever it holds, and its own. -/
theorem urlencode_spec :
    (∀ s, Percent.Escaped isUnreserved (urlencode s).toList ∧ Percent.decode (urlencode s).toList = some (bytesOf s)) ∧
      (∀ s t, urlencode s = urlencode t ↔ s = t) ∧
      (∀ s, '/' ∉ (urlencode s).toList ∧ '?' ∉ (urlencode s).toList ∧ '#' ∉ (urlencode s).toList) ∧
      ∀ homeserver (p : Put),
        (p.url homeserver).toList.splitOn '/' =
            homeserver.toList.splitOn '/' ++ (roomSegments p).map String.toList ∧
          ('?' ∈ (p.url homeserver).toList ↔ '?' ∈ homeserver.toList) ∧
          ('#' ∈ (p.url homeserver).toList ↔ '#' ∈ homeserver.toList) := by
  refine ⟨fun s => ⟨escaped_urlencode s, decode_urlencode s⟩, ?_, ?_, ?_⟩
  · intro s t
    exact ⟨urlencode_injective, congrArg urlencode⟩
  · intro s
    exact ⟨not_mem_urlencode (by simp), not_mem_urlencode (by simp), not_mem_urlencode (by simp)⟩
  · intro homeserver p
    exact ⟨splitOn_url homeserver p, mem_url_iff (Or.inl rfl), mem_url_iff (Or.inr rfl)⟩

end Url

end Daimon.Proof.Gateway
