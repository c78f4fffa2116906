import Mathlib.Data.List.Forall2
import Daimon.Lib.Words
import Daimon.Proof.Driver.Rollback

/-!
# The words of a command

A RouterOS write command is split at the spaces outside of quotes and compared with the parameters it was built from.
-/

namespace Daimon.Proof.Driver
open Daimon.Core Lib Daimon.Driver Daimon.Driver.RouterOs
open Daimon.Lib.Json (bind_ok)

/-! ## What is asked for -/

def commandWords (command : String) : List (List Char) := splitUnquoted ' ' '"' false command.toList

def fixed (words : List String) : List (List Char) := words.map String.toList

/-- A key of the schema and the name under which the command carries it. -/
structure Slot where
  key : String
  word : String
  quoted : Bool

def dropSlots : List Slot :=
  [⟨"dst_address", "dst-address", false⟩, ⟨"src_address", "src-address", false⟩,
   ⟨"in_interface", "in-interface", false⟩, ⟨"comment", "comment", true⟩]

def importSlots : List Slot := [⟨"user", "user", false⟩, ⟨"file", "public-key-file", false⟩]

def asked (p : Json) (slot : Slot) : Option (Slot × Json) :=
  match p.get? slot.key with
  | none | some .null => none
  | some value => some (slot, value)

/-- The word is `key=value`, where the value may stand in quotes. -/
def WordFor (ask : Slot × Json) (token : List Char) : Prop :=
  ∃ raw, token = ask.1.word.toList ++ '=' :: raw ∧
    ∀ text, ask.2 = .string text → raw = text.toList ∨ raw = '"' :: text.toList ++ ['"']

def WordsFor (p : Json) (slots : List Slot) (words : List String) (command : String) : Prop :=
  ∃ asks tokens, commandWords command = fixed words ++ tokens ∧ asks.Perm (slots.filterMap (asked p)) ∧
    List.Forall₂ WordFor asks tokens

/-- The command of a write capability carries what its parameters ask for and nothing else. -/
structure Conveys (capability : String) (p : Json) (command : String) : Prop where
  drop : capability = "network.routeros.firewall_add_drop_rule" →
    WordsFor p dropSlots ["/ip", "firewall", "filter", "add", "chain=forward", "action=drop"] command
  keyImport : capability = "network.routeros.user_ssh_key_import" →
    WordsFor p importSlots ["/user", "ssh-keys", "import"] command
  remove : capability = "network.routeros.firewall_remove_rule" → ∃ selector, p.get? "match" = some (.string selector) ∧
    commandWords command = fixed ["/ip", "firewall", "filter", "remove", "[find", selector ++ "]"]
  keyRemove : capability = "network.routeros.user_ssh_key_remove" → ∃ number, p.get? "number" = some (.string number) ∧
    commandWords command = fixed ["/user", "ssh-keys", "remove", number]

/-- The optional keys of a drop rule are missing, null or texts, and the name of a key file has no space. -/
def Conveyable (capability : String) (p : Json) : Prop :=
  (capability = "network.routeros.firewall_add_drop_rule" → ∀ key ∈ ["src_address", "in_interface", "comment"],
    p.get? key = none ∨ p.get? key = some .null ∨ ∃ text, p.get? key = some (.string text)) ∧
  (capability = "network.routeros.user_ssh_key_import" → ∀ file, p.get? "file" = some (.string file) →
    ' ' ∉ file.toList)

/-! ## What is written -/

def Slot.token (slot : Slot) (value : String) : List Char :=
  slot.word.toList ++ '=' :: if slot.quoted then '"' :: value.toList ++ ['"'] else value.toList

def written (p : Json) (slot : Slot) : Option (List Char) := (strParam p slot.key).map slot.token

variable {p : Json} {slot : Slot} {slots : List Slot} {value cmd out : String} {words : List (List Char)}

theorem asked_of_str (text : strParam p slot.key = some value) : asked p slot = some (slot, .string value) := by
  simp [asked, (strParam_some_iff).mp text]

theorem wordFor_token (slot : Slot) (value : String) : WordFor (slot, .string value) (slot.token value) := by
  refine ⟨_, rfl, ?_⟩
  rintro text ⟨⟩
  cases slot.quoted <;> simp

/-- Only texts are written, so as much is written as is asked for if only texts are asked for. -/
theorem written_length_le (p : Json) (slots : List Slot) :
    (slots.filterMap (written p)).length ≤ (slots.filterMap (asked p)).length := by
  induction slots with
  | nil => simp
  | cons slot slots ih =>
      cases text : strParam p slot.key with
      | none =>
          rw [List.filterMap_cons_none (show written p slot = none by simp [written, text])]
          refine ih.trans (List.Sublist.length_le ?_)
          exact List.Sublist.filterMap _ (List.sublist_cons_self slot slots)
      | some value =>
          simpa [List.filterMap_cons, written, text, asked_of_str text] using ih

theorem written_length_eq (same : (slots.filterMap (written p)).length = (slots.filterMap (asked p)).length)
    (member : slot ∈ slots) (present : (asked p slot).isSome) : (strParam p slot.key).isSome := by
  induction slots with
  | nil => cases member
  | cons first slots ih =>
      have shorter := written_length_le p slots
      cases text : strParam p first.key with
      | none =>
          have unwritten : written p first = none := by simp [written, text]
          cases ask : asked p first with
          | none =>
              simp only [List.filterMap_cons, unwritten, ask] at same
              rcases List.mem_cons.mp member with rfl | later
              · simp [ask] at present
              · exact ih same later
          | some a =>
              simp only [List.filterMap_cons, unwritten, ask, List.length_cons] at same
              omega
      | some value =>
          rcases List.mem_cons.mp member with rfl | later
          · simp [text]
          · refine ih ?_ later
            simpa [List.filterMap_cons, written, text, asked_of_str text] using same

theorem wordFor_written (texts : ∀ slot ∈ slots, (asked p slot).isSome → (strParam p slot.key).isSome) :
    List.Forall₂ WordFor (slots.filterMap (asked p)) (slots.filterMap (written p)) := by
  induction slots with
  | nil => exact .nil
  | cons slot slots ih =>
      have rest := ih fun other member => texts other (List.mem_cons_of_mem _ member)
      cases text : strParam p slot.key with
      | none =>
          have unasked : asked p slot = none := by
            by_contra some
            simpa [text] using texts slot List.mem_cons_self (Option.isSome_iff_ne_none.mpr some)
          simpa [List.filterMap_cons, written, text, unasked] using rest
      | some value =>
          simp only [List.filterMap_cons, written, text, asked_of_str text, Option.map_some]
          exact .cons (wordFor_token slot value) rest

/-! ## The commands -/

/-- What stands between quotes has none itself, and what stands outside of them has no space. -/
def Wordlike (slot : Slot) (value : String) : Prop :=
  '"' ∉ value.toList ∧ (slot.quoted = false → ' ' ∉ value.toList)

theorem Slot.isWord_token (slot : Slot) (value : String) (wordlike : Wordlike slot value)
    (key : isWord ' ' '"' false (slot.word.toList ++ ['=']) = true) :
    isWord ' ' '"' false (slot.token value) = true := by
  rw [Slot.token, List.append_cons]
  apply isWord_append key
  cases quoted : slot.quoted with
  | true => simpa using isWord_quoted (by decide) wordlike.1
  | false =>
      refine isWord_of_not_mem fun c member => ⟨?_, ?_⟩
      · rintro rfl
        exact wordlike.2 quoted member
      · rintro rfl
        exact wordlike.1 member

theorem wordlike_of_validate {cls : ParamClass} (plain : cls = .safeText ∨ cls = .cidr ∨ cls = .identifier)
    (spaceless : slot.quoted = true ∨ cls ≠ .safeText) (valid : validate value cls = .ok ()) : Wordlike slot value := by
  refine ⟨no_quote_of_validate plain valid, fun unquoted space => ?_⟩
  have inside := (validate_admissible valid).alphabet space
  rcases plain with rfl | rfl | rfl
  · rcases spaceless with quoted | other
    · exact absurd unquoted (by simp [quoted])
    · exact other rfl
  · exact absurd (show isCidrChar ' ' = true from inside) (by decide)
  · exact absurd (show isIdentifierChar ' ' = true from inside) (by decide)

theorem pushStr_madeOf (slot : Slot) {cls : ParamClass} {render : String → String}
    (made : MadeOf ' ' '"' cmd.toList words)
    (pushed : pushStr p slot.key cls render cmd = .ok out)
    (renders : ∀ value, (render value).toList = ' ' :: slot.token value)
    (isWord : ∀ value, validate value cls = .ok () → isWord ' ' '"' false (slot.token value) = true) :
    MadeOf ' ' '"' out.toList (words ++ (written p slot).toList) := by
  rcases pushStr_ok pushed with ⟨absent, rfl⟩ | ⟨value, present, valid, rfl⟩
  · simpa [written, absent] using made
  · rw [String.toList_append, renders]
    simpa [written, present] using made.push (isWord value valid)

theorem madeOf_words {text : List Char} (same : text = [' '].intercalate words) (nonempty : words ≠ [])
    (all : ∀ word ∈ words, isWord ' ' '"' false word = true) : MadeOf ' ' '"' text words := by
  rw [same]
  exact madeOf_intercalate nonempty all

@[simp] theorem fixed_nil : fixed [] = [] := rfl

theorem fixed_cons (chars : List Char) (words : List String) :
    fixed (String.ofList chars :: words) = chars :: fixed words := by
  rw [fixed, List.map_cons, String.toList_ofList, fixed]

theorem isWord_key {chars : List Char} (key : isWord ' ' '"' false (chars ++ ['=']) = true) :
    isWord ' ' '"' false ((String.ofList chars).toList ++ ['=']) = true := by
  rwa [String.toList_ofList]

theorem filterMap_cons_append {α β : Type*} (f : α → Option β) (x : α) (xs : List α) :
    (x :: xs).filterMap f = (f x).toList ++ xs.filterMap f := by
  cases result : f x <;> simp [result]

theorem addDropRule_madeOf (built : addDropRule (some p) = .ok cmd) :
    MadeOf ' ' '"' cmd.toList (fixed ["/ip", "firewall", "filter", "add", "chain=forward", "action=drop"] ++
      dropSlots.filterMap (written p)) := by
  obtain ⟨p, isParams, built⟩ := bind_ok built
  obtain rfl := Except.ok.inj isParams
  obtain ⟨dst, isDst, built⟩ := bind_ok built
  obtain ⟨⟨⟩, dstChecked, built⟩ := bind_ok built
  obtain ⟨withSrc, srcPushed, built⟩ := bind_ok built
  obtain ⟨withInterface, interfacePushed, built⟩ := bind_ok built
  have start : MadeOf ' ' '"' "/ip firewall filter add chain=forward action=drop".toList
      (fixed ["/ip", "firewall", "filter", "add", "chain=forward", "action=drop"]) := by
    repeat rw [fixed_cons]
    rw [String.toList_ofList, fixed_nil]
    exact madeOf_words rfl (by decide) (by decide)
  have withDst := start.push (Slot.isWord_token ⟨"dst_address", "dst-address", false⟩ dst
    (wordlike_of_validate (.inr (.inl rfl)) (.inr (by decide)) ((check_ok_iff).mp dstChecked)) (isWord_key (by decide)))
  have text : ("/ip firewall filter add chain=forward action=drop dst-address=" ++ dst).toList =
      "/ip firewall filter add chain=forward action=drop".toList ++
        ' ' :: Slot.token ⟨"dst_address", "dst-address", false⟩ dst := by
    rw [String.toList_append, Slot.token]
    repeat rw [String.toList_ofList]
    rfl
  rw [← text] at withDst
  have madeSrc := pushStr_madeOf ⟨"src_address", "src-address", false⟩ withDst srcPushed
    (fun value => by rw [String.toList_append, String.toList_ofList, Slot.token, String.toList_ofList]; rfl)
    fun value valid =>
      Slot.isWord_token _ _ (wordlike_of_validate (.inr (.inl rfl)) (.inr (by decide)) valid) (isWord_key (by decide))
  have madeInterface := pushStr_madeOf ⟨"in_interface", "in-interface", false⟩ madeSrc interfacePushed
    (fun value => by rw [String.toList_append, String.toList_ofList, Slot.token, String.toList_ofList]; rfl)
    fun value valid =>
      Slot.isWord_token _ _ (wordlike_of_validate (.inr (.inr rfl)) (.inr (by decide)) valid) (isWord_key (by decide))
  have made := pushStr_madeOf ⟨"comment", "comment", true⟩ madeInterface built
    (by simp [Slot.token]) fun value valid =>
      Slot.isWord_token _ _ (wordlike_of_validate (.inl rfl) (.inl rfl) valid) (isWord_key (by decide))
  have isWritten : written p ⟨"dst_address", "dst-address", false⟩ =
      some (Slot.token ⟨"dst_address", "dst-address", false⟩ dst) := by
    simp [written, (requireStr_ok_iff).mp isDst]
  simpa [dropSlots, filterMap_cons_append, isWritten] using made

theorem addDropRule_dst (built : addDropRule (some p) = .ok cmd) : (strParam p "dst_address").isSome := by
  obtain ⟨p, isParams, built⟩ := bind_ok built
  obtain rfl := Except.ok.inj isParams
  obtain ⟨dst, isDst, -⟩ := bind_ok built
  simp [(requireStr_ok_iff).mp isDst]

theorem importSshKey_ok (built : importSshKey (some p) = .ok cmd) : ∃ user file,
    strParam p "user" = some user ∧ strParam p "file" = some file ∧ validate user .identifier = .ok () ∧
      validate file .safeText = .ok () ∧ cmd = "/user ssh-keys import user=" ++ user ++ " public-key-file=" ++ file := by
  obtain ⟨p, isParams, built⟩ := bind_ok built
  obtain rfl := Except.ok.inj isParams
  obtain ⟨user, isUser, built⟩ := bind_ok built
  obtain ⟨file, isFile, built⟩ := bind_ok built
  obtain ⟨⟨⟩, userChecked, built⟩ := bind_ok built
  obtain ⟨⟨⟩, fileChecked, built⟩ := bind_ok built
  exact ⟨user, file, (requireStr_ok_iff).mp isUser, (requireStr_ok_iff).mp isFile, (check_ok_iff).mp userChecked,
    (check_ok_iff).mp fileChecked, (Except.ok.inj built).symm⟩

theorem importSshKey_madeOf (built : importSshKey (some p) = .ok cmd)
    (spaceless : ∀ file, p.get? "file" = some (.string file) → ' ' ∉ file.toList) :
    MadeOf ' ' '"' cmd.toList (fixed ["/user", "ssh-keys", "import"] ++ importSlots.filterMap (written p)) := by
  obtain ⟨user, file, isUser, isFile, userValid, fileValid, rfl⟩ := importSshKey_ok built
  have start : MadeOf ' ' '"' "/user ssh-keys import".toList
      (fixed ["/user", "ssh-keys", "import"]) := by
    repeat rw [fixed_cons]
    rw [String.toList_ofList, fixed_nil]
    exact madeOf_words rfl (by decide) (by decide)
  have withUser := start.push (Slot.isWord_token ⟨"user", "user", false⟩ user
    (wordlike_of_validate (.inr (.inr rfl)) (.inr (by decide)) userValid) (isWord_key (by decide)))
  have made := withUser.push (Slot.isWord_token ⟨"file", "public-key-file", false⟩ file
    ⟨no_quote_of_validate (.inl rfl) fileValid, fun _ => spaceless file ((strParam_some_iff).mp isFile)⟩
    (isWord_key (by decide)))
  simpa [importSlots, filterMap_cons_append, written, isUser, isFile, Slot.token] using made

/-- Every space of a file name adds a word. -/
theorem importSshKey_length (built : importSshKey (some p) = .ok cmd) {file : String}
    (isFile : p.get? "file" = some (.string file)) : (commandWords cmd).length = 5 + file.toList.count ' ' := by
  obtain ⟨user, file', isUser, isFile', userValid, fileValid, rfl⟩ := importSshKey_ok built
  obtain rfl : file' = file := Option.some.inj (isFile'.symm.trans ((strParam_some_iff).mpr isFile))
  have userPlain : ' ' ∉ user.toList := fun space =>
    absurd (show isIdentifierChar ' ' = true from (validate_admissible userValid).alphabet space) (by decide)
  have noQuotes : '"' ∉ ("/user ssh-keys import user=" ++ user ++ " public-key-file=" ++ file').toList := by
    simp [no_quote_of_validate (.inr (.inr rfl)) userValid, no_quote_of_validate (.inl rfl) fileValid]
  have front : "/user ssh-keys import user=".toList.count ' ' = 3 := by decide
  have middle : " public-key-file=".toList.count ' ' = 1 := by decide
  rw [commandWords, length_splitUnquoted noQuotes]
  simp only [String.toList_append, List.count_append, List.count_eq_zero.mpr userPlain, front, middle]
  omega

theorem wordsFor_iff {words : List String} {slots : List Slot}
    (made : commandWords cmd = fixed words ++ slots.filterMap (written p)) :
    WordsFor p slots words cmd ↔ ∀ slot ∈ slots, (asked p slot).isSome → (strParam p slot.key).isSome := by
  constructor
  · rintro ⟨asks, tokens, split, sameAsks, carried⟩ slot member
    rw [made] at split
    obtain rfl := List.append_cancel_left split
    exact written_length_eq (carried.length_eq.symm.trans sameAsks.length_eq) member
  · intro texts
    exact ⟨_, _, made, .refl _, wordFor_written texts⟩

theorem asked_text_iff : ((asked p slot).isSome → (strParam p slot.key).isSome) ↔
    p.get? slot.key = none ∨ p.get? slot.key = some .null ∨ ∃ text, p.get? slot.key = some (.string text) := by
  unfold asked strParam
  cases p.get? slot.key with
  | none => simp
  | some value => cases value <;> simp [Json.asStr?]

/-! ## Every command -/

theorem drop_conveys_iff (built : addDropRule (some p) = .ok cmd) :
    Conveys "network.routeros.firewall_add_drop_rule" p cmd ↔ Conveyable "network.routeros.firewall_add_drop_rule" p := by
  have conveys : Conveys "network.routeros.firewall_add_drop_rule" p cmd ↔
      WordsFor p dropSlots ["/ip", "firewall", "filter", "add", "chain=forward", "action=drop"] cmd :=
    ⟨fun conveys => conveys.drop rfl, fun words => ⟨fun _ => words, by simp, by simp, by simp⟩⟩
  have conveyable : Conveyable "network.routeros.firewall_add_drop_rule" p ↔
      ∀ key ∈ ["src_address", "in_interface", "comment"],
      p.get? key = none ∨ p.get? key = some .null ∨ ∃ text, p.get? key = some (.string text) := by
    simp [Conveyable]
  have dst : (asked p ⟨"dst_address", "dst-address", false⟩).isSome → (strParam p "dst_address").isSome :=
    fun _ => addDropRule_dst built
  rw [conveys, wordsFor_iff (addDropRule_madeOf built).split, conveyable]
  simp only [dropSlots, List.forall_mem_cons, asked_text_iff]
  rw [asked_text_iff] at dst
  simp [dst]

theorem import_conveys_iff (built : importSshKey (some p) = .ok cmd) :
    Conveys "network.routeros.user_ssh_key_import" p cmd ↔ Conveyable "network.routeros.user_ssh_key_import" p := by
  have conveyable : Conveyable "network.routeros.user_ssh_key_import" p ↔
      ∀ file, p.get? "file" = some (.string file) → ' ' ∉ file.toList := by
    simp [Conveyable]
  rw [conveyable]
  obtain ⟨user, file, isUser, isFile, -, -, -⟩ := importSshKey_ok built
  constructor
  · intro conveys file isFile space
    obtain ⟨asks, tokens, split, sameAsks, carried⟩ := conveys.keyImport rfl
    have longer := importSshKey_length built isFile
    have asking : asks.length ≤ 2 := sameAsks.length_eq ▸ List.length_filterMap_le _ _
    have spaces := List.count_pos_iff.mpr space
    rw [split, List.length_append, ← carried.length_eq] at longer
    simp only [fixed, List.length_map, List.length_cons, List.length_nil] at longer
    omega
  · intro spaceless
    refine ⟨by simp, fun _ => ?_, by simp, by simp⟩
    rw [wordsFor_iff (importSshKey_madeOf built spaceless).split]
    simp [importSlots, isUser, isFile]

theorem remove_conveys (built : removeRule (some p) = .ok cmd) :
    Conveys "network.routeros.firewall_remove_rule" p cmd := by
  obtain ⟨selector, present, valid, rfl⟩ := (removeRule_ok_iff).mp built
  refine ⟨by simp, by simp, fun _ => ⟨selector, (strParam_some_iff).mp present, ?_⟩, by simp⟩
  have start : MadeOf ' ' '"' "/ip firewall filter remove [find".toList
      (fixed ["/ip", "firewall", "filter", "remove", "[find"]) := by
    repeat rw [fixed_cons]
    rw [String.toList_ofList, fixed_nil]
    exact madeOf_words rfl (by decide) (by decide)
  have plain : isWord ' ' '"' false (selector ++ "]").toList = true := by
    refine isWord_of_not_mem fun c member => ?_
    rcases List.mem_append.mp (String.toList_append ▸ member) with inside | bracket
    · have identifier : isIdentifierChar c = true := (validate_admissible valid).alphabet inside
      constructor <;> rintro rfl <;> exact absurd identifier (by decide)
    · obtain rfl := List.mem_singleton.mp bracket
      decide
  have made := (start.push plain).split
  simpa [commandWords, fixed] using made

theorem keyRemove_conveys (built : removeSshKey (some p) = .ok cmd) :
    Conveys "network.routeros.user_ssh_key_remove" p cmd := by
  obtain ⟨number, present, valid, rfl⟩ := (removeSshKey_ok_iff).mp built
  refine ⟨by simp, by simp, by simp, fun _ => ⟨number, (strParam_some_iff).mp present, ?_⟩⟩
  have start : MadeOf ' ' '"' "/user ssh-keys remove".toList
      (fixed ["/user", "ssh-keys", "remove"]) := by
    repeat rw [fixed_cons]
    rw [String.toList_ofList, fixed_nil]
    exact madeOf_words rfl (by decide) (by decide)
  have plain : isWord ' ' '"' false number.toList = true := by
    refine isWord_of_not_mem fun c member => ?_
    have digit : c.isDigit = true ∨ c = '-' ∨ c = '+' := (validate_admissible valid).alphabet member
    constructor <;> rintro rfl <;> exact absurd digit (by decide)
  have made := (start.push plain).split
  simpa [commandWords, fixed] using made

theorem isRead_of_marker {chars : List Char} {version : Version} (marker : List Char)
    (listed : String.ofList marker ∈ Capability.readMarkers) (inside : marker <:+: chars) :
    (Capability.readOnly (String.ofList chars) version).isRead ≠ false := by
  have named : Capability.nameIsRead (String.ofList chars) = true := by
    rw [Capability.nameIsRead, String.toList_ofList]
    refine List.any_eq_true.mpr ⟨_, listed, decide_eq_true ?_⟩
    rwa [String.toList_ofList]
  simp [Capability.isRead, Capability.readOnly, named]

/-- The words of an accepted write command are what was asked for, exactly if the optional keys of a drop rule are
missing, null or texts and a key file's name has no space. -/
theorem commands_convey_iff (cap : Capability) (member : cap ∈ buildCapabilities) (write : cap.isRead = false)
    (p : Json) (command : String) (accepted : buildCommand cap.name (some p) = .ok command) :
    Conveys cap.name p command ↔ Conveyable cap.name p := by
  simp only [buildCapabilities, List.mem_cons, List.not_mem_nil, or_false] at member
  rcases member with rfl | rfl | rfl | rfl | rfl | rfl | rfl | rfl
  case inr.inr.inr.inr.inl => exact drop_conveys_iff accepted
  case inr.inr.inr.inr.inr.inl => exact import_conveys_iff accepted
  case inr.inr.inr.inr.inr.inr.inl =>
    refine iff_of_true (keyRemove_conveys accepted) ⟨?_, ?_⟩ <;> simp
  case inr.inr.inr.inr.inr.inr.inr =>
    refine iff_of_true (remove_conveys accepted) ⟨?_, ?_⟩ <;> simp
  -- the others are reads by the markers in their names
  case inl => exact absurd write (isRead_of_marker ['_', 'i', 'n', 'f', 'o'] (by decide) (by decide))
  case inr.inl => exact absurd write (isRead_of_marker ['_', 'l', 'i', 's', 't'] (by decide) (by decide))
  case inr.inr.inl =>
    exact absurd write (isRead_of_marker ['_', 'a', 'd', 'd', 'r', 'e', 's', 's', 'e', 's'] (by decide) (by decide))
  case inr.inr.inr.inl => exact absurd write (isRead_of_marker ['_', 'l', 'i', 's', 't'] (by decide) (by decide))

theorem dropRule_conveys : Conveys dropRule.name (dropParams "block tiktok")
    "/ip firewall filter add chain=forward action=drop dst-address=10.0.0.0/24 comment=\"block tiktok\"" :=
  (commands_convey_iff dropRule (List.get_mem _ _) (by decide) (dropParams "block tiktok") _ rfl).mpr
    ⟨fun _ => by simp [dropParams, Json.get?], fun other => absurd other (by decide)⟩

/-- The source address is a list, and the rule is for every source. -/
def widened : Json :=
  .object [("dst_address", .string "10.0.0.0/24"), ("src_address", .array [.string "10.1.0.0/24"])]

def spaced : Json := .object [("file", .string "id.pub passphrase-file"), ("user", .string "admin")]

theorem restriction_dropped :
    (dropRule ∈ buildCapabilities ∧ dropRule.isRead = false ∧ buildCommand dropRule.name (some widened) =
        .ok "/ip firewall filter add chain=forward action=drop dst-address=10.0.0.0/24" ∧
      ¬ Conveys dropRule.name widened "/ip firewall filter add chain=forward action=drop dst-address=10.0.0.0/24") ∧
    keyImport ∈ buildCapabilities ∧ keyImport.isRead = false ∧ buildCommand keyImport.name (some spaced) =
        .ok "/user ssh-keys import user=admin public-key-file=id.pub passphrase-file" ∧
      ¬ Conveys keyImport.name spaced "/user ssh-keys import user=admin public-key-file=id.pub passphrase-file" := by
  refine ⟨⟨List.get_mem _ _, by decide, rfl, fun conveys => ?_⟩, List.get_mem _ _, by decide, rfl, fun conveys => ?_⟩
  · obtain none | null | ⟨text, same⟩ := ((drop_conveys_iff rfl).mp conveys).1 rfl "src_address" (by decide)
    · cases none
    · cases null
    · cases same
  · exact ((import_conveys_iff rfl).mp conveys).2 rfl "id.pub passphrase-file" rfl (by decide)

end Daimon.Proof.Driver
