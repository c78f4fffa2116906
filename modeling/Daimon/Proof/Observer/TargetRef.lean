import Daimon.Observer.Ingest

/-!
# Targets from instance labels

The host of a label is what stands before its first colon. For a name, with or without a port, that is right; for an
address in brackets, a URL or a path it is not, and a target is derived all the same.
-/

namespace Daimon.Proof.Observer
open Daimon.Observer Daimon.Broker

/-! ## Labels -/

def IsHost (host : List Char) : Prop := host ≠ [] ∧ ∀ c ∈ host, c ∉ [':', '/', '[', ']']

def IsPort (port : List Char) : Prop := port ≠ [] ∧ ∀ c ∈ port, c.isDigit = true

def IsV6 (v6 : List Char) : Prop := v6 ≠ [] ∧ ∀ c ∈ v6, isAsciiHexDigit c = true ∨ c = ':' ∨ c = '.'

inductive LabelOf : (label host : List Char) → Prop
  | host {host : List Char} (named : IsHost host) : LabelOf host host
  | hostPort {host port : List Char} (named : IsHost host) (number : IsPort port) : LabelOf (host ++ ':' :: port) host
  | v6 {v6 : List Char} (address : IsV6 v6) : LabelOf ('[' :: v6 ++ [']']) v6
  | v6Port {v6 port : List Char} (address : IsV6 v6) (number : IsPort port) :
      LabelOf ('[' :: v6 ++ ']' :: ':' :: port) v6

/-- What is derived is a target that parses and is named by the host, and a host is derived from every label that has
one but the sentinel. -/
structure Derives (sourceId : String) : Prop where
  sound : ∀ r, targetRefFromSourceId sourceId = some r → ∃ ref, TargetRef.parse r = .ok ref ∧
    LabelOf sourceId.toList ref.name.toList ∧ ∀ c ∈ ref.name.toList, c ∉ ['/', '[', ']']
  complete : ∀ host, LabelOf sourceId.toList host → sourceId ≠ "default" →
    targetRefFromSourceId sourceId = some ("target://" ++ String.ofList host)

variable {sourceId : String} {label host port : List Char}

theorem LabelOf.clean (labelled : LabelOf label host) : ∀ c ∈ host, c ∉ ['/', '[', ']'] := by
  have hex : ∀ c, isAsciiHexDigit c = true ∨ c = ':' ∨ c = '.' → c ∉ ['/', '[', ']'] := by
    rintro c digit bad
    simp only [List.mem_cons, List.not_mem_nil, or_false] at bad
    rcases bad with rfl | rfl | rfl <;> revert digit <;> decide
  cases labelled with
  | host named | hostPort named => exact fun c member bad => named.2 c member (List.mem_cons_of_mem _ bad)
  | v6 address | v6Port address => exact fun c member => hex c (address.2 c member)

theorem parse_target {name : List Char} (some : name ≠ []) (flat : '/' ∉ name) :
    TargetRef.parse ("target://" ++ String.ofList name) = .ok ⟨String.ofList name⟩ := by
  have nonempty : String.ofList name ≠ "" := fun empty => some (by simpa using congrArg String.toList empty)
  simp [TargetRef.parse, stripPrefix?, nonempty, flat]

theorem parse_target_ok {name : List Char} {ref : TargetRef}
    (parsed : TargetRef.parse ("target://" ++ String.ofList name) = .ok ref) : ref.name.toList = name := by
  have stripped : stripPrefix? "target://" ("target://" ++ String.ofList name) = some (String.ofList name) := by
    simp [stripPrefix?]
  rw [TargetRef.parse, stripped] at parsed
  simp only at parsed
  split_ifs at parsed
  obtain rfl := Except.ok.inj parsed
  exact String.toList_ofList

/-! ## What is derived -/

/-- The label is a name with or without a port. -/
def Named (label : List Char) : Prop :=
  ∃ host, IsHost host ∧ (label = host ∨ ∃ port, IsPort port ∧ label = host ++ ':' :: port)

theorem IsHost.takeWhile (named : IsHost host) : host.takeWhile (· ≠ ':') = host :=
  List.takeWhile_eq_self_iff.mpr fun c member => decide_eq_true fun colon =>
    named.2 c member (colon ▸ List.mem_cons_self)

theorem IsHost.takeWhile_port (named : IsHost host) (port : List Char) :
    (host ++ ':' :: port).takeWhile (· ≠ ':') = host := by
  have before : ∀ c ∈ host, decide (c ≠ ':') = true := fun c member => decide_eq_true fun colon =>
    named.2 c member (colon ▸ List.mem_cons_self)
  rw [List.takeWhile_append_of_pos before]
  simp

/-- The host of a label is what stands before its first colon, or the label begins with a bracket. -/
theorem LabelOf.cases (labelled : LabelOf label host) :
    IsHost host ∧ label.takeWhile (· ≠ ':') = host ∧ Named label ∨ label.head? = some '[' := by
  cases labelled with
  | host named => exact .inl ⟨named, named.takeWhile, _, named, .inl rfl⟩
  | hostPort named number => exact .inl ⟨named, named.takeWhile_port _, _, named, .inr ⟨_, number, rfl⟩⟩
  | v6 address | v6Port address => exact .inr rfl

theorem Named.labelOf (named : Named label) : ∃ host, LabelOf label host := by
  obtain ⟨host, isHost, rfl | ⟨port, number, rfl⟩⟩ := named
  · exact ⟨_, .host isHost⟩
  · exact ⟨_, .hostPort isHost number⟩

theorem Named.head (named : Named label) : ∃ c, label.head? = some c ∧ c ∉ [':', '/', '[', ']'] := by
  have first {host rest : List Char} (isHost : IsHost host) :
      ∃ c, (host ++ rest).head? = some c ∧ c ∉ [':', '/', '[', ']'] := by
    obtain ⟨c, cs, rfl⟩ := List.exists_cons_of_ne_nil isHost.1
    exact ⟨c, rfl, isHost.2 c List.mem_cons_self⟩
  obtain ⟨host, isHost, rfl | ⟨port, number, rfl⟩⟩ := named
  · simpa using @first label [] isHost
  · exact first isHost

theorem takeWhile_eq_nil_iff {cs : List Char} (nonempty : cs ≠ []) :
    cs.takeWhile (· ≠ ':') = [] ↔ cs.head? = some ':' := by
  cases cs with
  | nil => exact absurd rfl nonempty
  | cons c rest => by_cases colon : c = ':' <;> simp [colon]

theorem target_eq_none_iff : targetRefFromSourceId sourceId = none ↔
    sourceId = "" ∨ sourceId = "default" ∨ sourceId.toList.head? = some ':' := by
  by_cases empty : sourceId = ""
  · simp [targetRefFromSourceId, empty]
  by_cases sentinel : sourceId = "default"
  · simp [targetRefFromSourceId, sentinel]
  have nonempty : sourceId.toList ≠ [] := fun nil => empty (String.toList_inj.mp nil)
  rw [← takeWhile_eq_nil_iff nonempty]
  simp [targetRefFromSourceId, empty, sentinel, ← String.toList_inj]

theorem target_eq_some {r : String} (derived : targetRefFromSourceId sourceId = some r) :
    r = "target://" ++ String.ofList (sourceId.toList.takeWhile (· ≠ ':')) := by
  unfold targetRefFromSourceId at derived
  split at derived
  · cases derived
  · simp only at derived
    split at derived
    · cases derived
    · exact (Option.some.inj derived).symm

theorem derives_of_none (derived : targetRefFromSourceId sourceId = none) : Derives sourceId := by
  refine ⟨fun r some => (by rw [derived] at some; cases some), fun host labelled other => ?_⟩
  rcases (target_eq_none_iff).mp derived with rfl | sentinel | colon
  · rcases labelled.cases with ⟨-, -, named⟩ | bracket
    · obtain ⟨c, starts, -⟩ := named.head
      cases starts
    · cases bracket
  · exact absurd sentinel other
  · rcases labelled.cases with ⟨-, -, named⟩ | bracket
    · obtain ⟨c, starts, plain⟩ := named.head
      obtain rfl := Option.some.inj (starts.symm.trans colon)
      exact absurd List.mem_cons_self plain
    · cases colon.symm.trans bracket

theorem derives_of_named (named : Named sourceId.toList) : Derives sourceId := by
  cases derived : targetRefFromSourceId sourceId with
  | none => exact derives_of_none derived
  | some r =>
      obtain rfl := target_eq_some derived
      obtain ⟨c, starts, plain⟩ := named.head
      have unbracketed : sourceId.toList.head? ≠ some '[' := fun bracket => by
        obtain rfl := Option.some.inj (starts.symm.trans bracket)
        simp at plain
      constructor
      · rintro r some
        obtain rfl := Option.some.inj (derived.symm.trans some)
        obtain ⟨host, labelled⟩ := named.labelOf
        rcases labelled.cases with ⟨isHost, before, -⟩ | bracket
        · have flat : '/' ∉ host := fun slash => isHost.2 '/' slash (by simp)
          refine ⟨_, by rw [before]; exact parse_target isHost.1 flat, ?_, ?_⟩
          all_goals rw [String.toList_ofList]
          · exact labelled
          · exact labelled.clean
        · exact absurd bracket unbracketed
      · intro host labelled _
        rcases labelled.cases with ⟨-, before, -⟩ | bracket
        · rw [derived, before]
        · exact absurd bracket unbracketed

/-- What is derived from a label is right exactly if nothing is derived or the label is a name with or without a port. -/
theorem target_ref_derives_iff (sourceId : String) :
    Derives sourceId ↔ sourceId = "" ∨ sourceId = "default" ∨ sourceId.toList.head? = some ':' ∨ Named sourceId.toList := by
  constructor
  · intro derives
    cases derived : targetRefFromSourceId sourceId with
    | none =>
        rcases (target_eq_none_iff).mp derived with empty | sentinel | colon
        · exact .inl empty
        · exact .inr (.inl sentinel)
        · exact .inr (.inr (.inl colon))
    | some r =>
        obtain ⟨ref, parsed, labelled, clean⟩ := derives.sound r derived
        rw [target_eq_some derived] at parsed
        have name := parse_target_ok parsed
        rcases labelled.cases with ⟨-, -, named⟩ | bracket
        · exact .inr (.inr (.inr named))
        · obtain ⟨rest, starts⟩ := List.head?_eq_some_iff.mp bracket
          have residue : '[' ∈ ref.name.toList := by simp [name, starts]
          exact absurd (by simp) (clean '[' residue)
  · rintro (empty | sentinel | colon | named)
    · exact derives_of_none ((target_eq_none_iff).mpr (.inl empty))
    · exact derives_of_none ((target_eq_none_iff).mpr (.inr (.inl sentinel)))
    · exact derives_of_none ((target_eq_none_iff).mpr (.inr (.inr colon)))
    · exact derives_of_named named

/-- An address in brackets gives a bracket, and a path a reference that does not parse. -/
theorem bracketed_address_misread :
    targetRefFromSourceId "[::1]:9100" = some "target://[" ∧ ¬ Derives "[::1]:9100" ∧
      targetRefFromSourceId "host/metrics" = some "target://host/metrics" ∧ ¬ Derives "host/metrics" := by
  refine ⟨by decide, fun derives => ?_, by decide, fun derives => ?_⟩
  · obtain ⟨ref, parsed, -, clean⟩ := derives.sound "target://[" (by decide)
    obtain rfl := Except.ok.inj parsed
    exact absurd (by decide) (clean '[' (by decide))
  · obtain ⟨ref, parsed, -, -⟩ := derives.sound "target://host/metrics" (by decide)
    cases parsed

end Daimon.Proof.Observer
