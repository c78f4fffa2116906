import Mathlib.Data.List.Infix

/-!
# Patterns of `LIKE`

A percent sign stands for any text, an underscore for any character, and a backslash for the character behind it. A text
between two percent signs is looked for as it stands exactly if none of the three is in it.
-/

namespace Daimon.Lib.Like

inductive Token where
  | lit (c : Char)
  | one
  | many
  deriving DecidableEq, Repr

/-- The token of a character that is no backslash. -/
def token (c : Char) : Token := if c = '%' then .many else if c = '_' then .one else .lit c

/-- None for a pattern that ends with a backslash that escapes nothing. -/
def tokens : List Char → Option (List Token)
  | [] => some []
  | [c] => if c = '\\' then none else some [token c]
  | c :: d :: p =>
      if c = '\\' then (tokens p).map (.lit d :: ·)
      else (tokens (d :: p)).map (token c :: ·)

def fits : List Token → List Char → Bool
  | [], s => s.isEmpty
  | .lit c :: p, s =>
      match s with
      | x :: s => x == c && fits p s
      | [] => false
  | .one :: p, s =>
      match s with
      | _ :: s => fits p s
      | [] => false
  | .many :: p, s => s.tails.any (fits p)

/-- `s LIKE p`. -/
def like (p s : List Char) : Bool := (tokens p).any fun p => fits p s

def isSpecial (c : Char) : Bool := c = '%' || c = '_' || c = '\\'

def Plain (t : List Char) : Prop := ∀ c ∈ t, isSpecial c = false

instance (t : List Char) : Decidable (Plain t) := inferInstanceAs (Decidable (∀ c ∈ t, _))

/-- How letters are compared: each by its lower case. The characters that a pattern uses are nothing's lower case but
their own. -/
structure Folding where
  lower : Char → Char
  special : ∀ s, isSpecial s = true → ∀ c, lower c = s ↔ c = s

/-- `s ILIKE p`. -/
def ilike (fold : Folding) (p s : List Char) : Bool := like (p.map fold.lower) (s.map fold.lower)

/-- The pattern that looks for `t` anywhere. -/
def anywhere (t : List Char) : List Char := '%' :: (t ++ ['%'])

/-! ## What fits -/

variable {p q : List Token} {s t : List Char} {c : Char}

theorem fits_many : fits (.many :: p) s = true ↔ ∃ r, r <:+ s ∧ fits p r = true := by
  rw [fits, List.any_eq_true]
  simp only [List.mem_tails]

theorem fits_all (s : List Char) : fits [.many] s = true :=
  (fits_many).mpr ⟨[], List.nil_suffix, rfl⟩

theorem fits_lits (t : List Char) : fits (t.map Token.lit ++ [.many]) s = true ↔ t <+: s := by
  induction t generalizing s with
  | nil => simp [fits_all]
  | cons c t ih =>
      cases s with
      | nil => simp [fits]
      | cons x s =>
          simp only [List.map_cons, List.cons_append, fits, Bool.and_eq_true, beq_iff_eq, ih, List.cons_prefix_cons]
          exact and_congr_left fun _ => eq_comm

theorem infix_iff_prefix_of_suffix : t <:+: s ↔ ∃ r, r <:+ s ∧ t <+: r := by
  constructor
  · rintro ⟨x, y, rfl⟩
    exact ⟨t ++ y, ⟨x, by simp⟩, List.prefix_append t y⟩
  · rintro ⟨r, behind, front⟩
    exact front.isInfix.trans behind.isInfix

theorem tokens_cons (other : c ≠ '\\') (s : List Char) :
    tokens (c :: s) = (tokens s).map (token c :: ·) := by
  cases s with
  | nil => simp [tokens, other]
  | cons d s => rw [tokens, if_neg other]

theorem tokens_plain (plain : Plain t) : tokens (t ++ ['%']) = some (t.map Token.lit ++ [.many]) := by
  induction t with
  | nil => rfl
  | cons c t ih =>
      have first := plain c List.mem_cons_self
      simp only [isSpecial, Bool.or_eq_false_iff, decide_eq_false_iff_not] at first
      obtain ⟨⟨percent, underscore⟩, backslash⟩ := first
      rw [List.cons_append, tokens_cons backslash, ih fun d member => plain d (List.mem_cons_of_mem _ member)]
      simp [token, percent, underscore]

theorem like_anywhere_plain (plain : Plain t) : like (anywhere t) s = true ↔ t <:+: s := by
  have parsed : tokens (anywhere t) = some (.many :: (t.map Token.lit ++ [.many])) := by
    rw [anywhere, tokens_cons (by decide), tokens_plain plain]
    rfl
  rw [like, parsed, infix_iff_prefix_of_suffix]
  show fits (.many :: (t.map Token.lit ++ [.many])) s = true ↔ _
  rw [fits_many]
  simp only [fits_lits]

/-! ## What a pattern fits that is not plain -/

def piece (c : Char) : List Char := if c = '%' then [] else if c = '_' then ['x'] else [c]

/-- A shortest text that `anywhere t` fits. -/
def shortest : List Char → List Char
  | [] => []
  | [c] => if c = '\\' then ['%'] else piece c
  | c :: d :: t => if c = '\\' then d :: shortest t else piece c ++ shortest (d :: t)

theorem shortest_cons (other : c ≠ '\\') (t : List Char) : shortest (c :: t) = piece c ++ shortest t := by
  cases t with
  | nil => simp [shortest, other]
  | cons d t => rw [shortest, if_neg other]

theorem mem_piece {d : Char} (member : d ∈ piece c) : d = c ∨ d = 'x' := by
  unfold piece at member
  split_ifs at member
  · cases member
  · exact Or.inr (List.mem_singleton.mp member)
  · exact Or.inl (List.mem_singleton.mp member)

/-- The shortest text has the pattern's characters and two of its own. -/
theorem mem_shortest {d : Char} (t : List Char) (member : d ∈ shortest t) : d ∈ t ∨ d = 'x' ∨ d = '%' := by
  induction t using shortest.induct with
  | case1 => cases member
  | case2 => exact Or.inr (Or.inr (List.mem_singleton.mp member))
  | case3 c other =>
      rw [shortest, if_neg other] at member
      rcases mem_piece member with rfl | made
      · exact Or.inl (List.mem_singleton_self _)
      · exact Or.inr (Or.inl made)
  | case4 e t ih =>
      simp only [shortest, if_true, List.mem_cons] at member
      rcases member with rfl | later
      · exact Or.inl (by simp)
      · exact (ih later).imp_left fun old => List.mem_cons_of_mem _ (List.mem_cons_of_mem _ old)
  | case5 c e t other ih =>
      rw [shortest_cons other] at member
      rcases List.mem_append.mp member with first | later
      · rcases mem_piece first with rfl | made
        · exact Or.inl List.mem_cons_self
        · exact Or.inr (Or.inl made)
      · exact (ih later).imp_left (List.mem_cons_of_mem _)

variable (fold : Folding)

theorem Folding.keeps {s : Char} (special : isSpecial s = true) : fold.lower s = s :=
  (fold.special s special s).mpr rfl

theorem fits_token (c : Char) (rest : fits p s = true) :
    fits (token (fold.lower c) :: p) ((piece c).map fold.lower ++ s) = true := by
  have percent := fold.special '%' rfl c
  have underscore := fold.special '_' rfl c
  unfold token piece
  rw [if_congr percent rfl rfl, if_congr underscore rfl rfl]
  split_ifs
  · exact (fits_many).mpr ⟨s, List.suffix_refl _, rest⟩
  · exact rest
  · simpa [fits] using rest

theorem tokens_shortest (t : List Char) : ∃ p, tokens (t.map fold.lower ++ ['%']) = some p ∧
    fits p ((shortest t).map fold.lower) = true := by
  have backslash : fold.lower '\\' = '\\' := fold.keeps rfl
  have percent : fold.lower '%' = '%' := fold.keeps rfl
  induction t using shortest.induct with
  | case1 => exact ⟨[.many], rfl, rfl⟩
  | case2 => exact ⟨[.lit '%'], by simp [backslash, tokens], by simp [shortest, percent, fits]⟩
  | case3 c other =>
      have plain : fold.lower c ≠ '\\' := mt (fold.special '\\' rfl c).mp other
      refine ⟨[token (fold.lower c), .many], ?_, ?_⟩
      · rw [List.map_singleton, List.singleton_append, tokens_cons plain]
        rfl
      · rw [shortest, if_neg other, ← List.append_nil ((piece c).map fold.lower)]
        exact fits_token fold c (fits_all [])
  | case4 d t ih =>
      obtain ⟨p, parsed, rest⟩ := ih
      refine ⟨.lit (fold.lower d) :: p, ?_, ?_⟩
      · simp [backslash, tokens, parsed]
      · simp [shortest, fits, rest]
  | case5 c d t other ih =>
      obtain ⟨p, parsed, rest⟩ := ih
      have plain : fold.lower c ≠ '\\' := mt (fold.special '\\' rfl c).mp other
      refine ⟨token (fold.lower c) :: p, ?_, ?_⟩
      · rw [List.map_cons, List.cons_append, tokens_cons plain, parsed]
        rfl
      · rw [shortest_cons other, List.map_append]
        exact fits_token fold c rest

theorem ilike_shortest (t front : List Char) : ilike fold (anywhere t) (front ++ shortest t) = true := by
  obtain ⟨p, parsed, rest⟩ := tokens_shortest fold t
  have percent : fold.lower '%' = '%' := fold.keeps rfl
  have whole : tokens ((anywhere t).map fold.lower) = some (.many :: p) := by
    rw [anywhere, List.map_cons, percent, List.map_append, List.map_singleton, percent, tokens_cons (by decide), parsed]
    rfl
  rw [ilike, like, whole, List.map_append]
  exact (fits_many).mpr ⟨_, List.suffix_append _ _, rest⟩

theorem length_piece_le (c : Char) : (piece c).length ≤ 1 := by
  unfold piece
  split_ifs <;> simp

theorem length_shortest_le (t : List Char) : (shortest t).length ≤ t.length := by
  induction t using shortest.induct with
  | case1 => exact Nat.le_refl _
  | case2 => exact Nat.le_refl _
  | case3 c other =>
      rw [shortest, if_neg other]
      exact length_piece_le c
  | case4 d t ih =>
      simp only [shortest, if_true, List.length_cons]
      omega
  | case5 c d t other ih =>
      have one := length_piece_le c
      rw [shortest_cons other, List.length_append, List.length_cons]
      omega

theorem plain_of_piece {fold : Folding} (other : c ≠ '\\') (short : s.length ≤ t.length)
    (same : (c :: t).map fold.lower = (piece c ++ s).map fold.lower) :
    isSpecial c = false ∧ t.map fold.lower = s.map fold.lower := by
  unfold piece at same
  split_ifs at same with percent underscore
  · have lengths := congrArg List.length same
    simp only [List.length_map, List.length_cons, List.nil_append] at lengths
    omega
  · have first : fold.lower '_' = fold.lower 'x' := by
      rw [← underscore]
      exact (List.cons.inj same).1
    rw [fold.keeps rfl] at first
    exact absurd ((fold.special '_' rfl 'x').mp first.symm) (by decide)
  · exact ⟨by simp [isSpecial, percent, underscore, other], (List.cons.inj same).2⟩

/-- Only a plain text is in the shortest text that its pattern fits. -/
theorem plain_of_infix_shortest (t : List Char) (inside : t.map fold.lower <:+: (shortest t).map fold.lower) :
    Plain t := by
  have same : t.map fold.lower = (shortest t).map fold.lower := by
    apply inside.sublist.eq_of_length_le
    simpa using length_shortest_le t
  clear inside
  induction t using shortest.induct with
  | case1 => exact nofun
  | case2 =>
      have first : fold.lower '\\' = fold.lower '%' := (List.cons.inj same).1
      rw [fold.keeps rfl, fold.keeps rfl] at first
      cases first
  | case3 c other =>
      rw [shortest, if_neg other, ← List.append_nil (piece c)] at same
      have first : isSpecial c = false := (plain_of_piece (t := []) (s := []) other (Nat.le_refl 0) same).1
      exact fun d member => List.mem_singleton.mp member ▸ first
  | case4 d t ih =>
      have lengths := congrArg List.length same
      have short := length_shortest_le t
      simp only [List.length_map, List.length_cons, shortest, if_true] at lengths
      omega
  | case5 c d t other ih =>
      rw [shortest_cons other] at same
      obtain ⟨first, rest⟩ := plain_of_piece other (length_shortest_le (d :: t)) same
      intro x member
      rcases List.mem_cons.mp member with rfl | later
      · exact first
      · exact ih rest x later

theorem special_cases {s : Char} (special : isSpecial s = true) : s = '%' ∨ s = '_' ∨ s = '\\' := by
  simpa [isSpecial, or_assoc] using special

/-- ASCII's lower case. -/
def asciiFolding : Folding where
  lower := Char.toLower
  special := by
    intro s special c
    unfold Char.toLower
    split_ifs with upper
    · have low : 65 ≤ c.val.toNat := UInt32.le_iff_toNat_le.mp upper.1
      have high : c.val.toNat ≤ 90 := UInt32.le_iff_toNat_le.mp upper.2
      have lowered : (c.val + ('a'.val - 'A'.val)).toNat = (c.val.toNat + 32) % 0x100000000 := UInt32.toNat_add _ _
      rw [Char.ext_iff, Char.ext_iff, ← UInt32.toNat_inj, ← UInt32.toNat_inj, lowered]
      rcases special_cases special with rfl | rfl | rfl
      · have value : '%'.val.toNat = 37 := rfl
        omega
      · have value : '_'.val.toNat = 95 := rfl
        omega
      · have value : '\\'.val.toNat = 92 := rfl
        omega
    · exact Iff.rfl

end Daimon.Lib.Like
