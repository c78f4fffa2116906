import Daimon.Lib.Run
import Daimon.Proof.App.Settings

/-!
# Writing a secret setting

One call of `set_setting` for a secret, with a failure at any of its statements. The table gets a reference or the
empty string and the vault gets the text, one after the other and without a way back.
-/

namespace Daimon.Proof.App.Settings
open Daimon.Core Lib Daimon.App.Settings
open Daimon.App (resolveVaultApiToken resolveMaybeRef)
open Daimon.Vault (Credentials)

variable {cfg : Config}

/-- A call that runs alone. -/
def alone (cfg : Config) (x : Shared × Call) (answer : Answer) : Option (Shared × Call) :=
  advance cfg x.1 x.2 answer

def keySecret (cfg : Config) (s : Shared) (key : String) : Option String :=
  (s.config.row key).bind fun row => row.value.asStr?.bind (resolveMaybeRef cfg.collation s.vault)

/-- The secret that the call is to leave the key with. -/
def target (cfg : Config) (vault : Credentials) (value : Json) : Option String :=
  match classify cfg.texts value with
  | .reference text => resolveMaybeRef cfg.collation vault text
  | .plaintext text => some text
  | .cleared => none

/-! ## The two stores -/

/-- The vault is ready for the row of the key to be set to `value`. -/
inductive Ready (cfg : Config) (vault : Credentials) (key : String) (given : Json) : String → Credentials → Prop
  | reference {text : String} (isReference : classify cfg.texts given = .reference text) :
      Ready cfg vault key given text vault
  | plaintext {text : String} {vault' : Credentials} (isPlaintext : classify cfg.texts given = .plaintext text)
      (holds : ∀ other, resolveVaultApiToken cfg.collation vault' other =
        if other = vaultName key then some text else resolveVaultApiToken cfg.collation vault other) :
      Ready cfg vault key given ("vault://" ++ vaultName key) vault'
  | cleared (isCleared : classify cfg.texts given = .cleared) : Ready cfg vault key given "" vault

theorem classify_reference {texts : Texts} {value : Json} {text : String}
    (reference : classify texts value = .reference text) : "vault://".toList <+: text.toList := by
  unfold classify at reference
  split at reference
  · split_ifs at reference with isReference
    cases reference
    exact isReference
  · cases reference

theorem classify_plaintext {texts : Texts} {value : Json} {text : String} (scalar : secretText texts value = some text)
    (nonempty : text ≠ "") (plain : ¬ "vault://".toList <+: text.toList) : classify texts value = .plaintext text := by
  rw [classify, scalar]
  simp only [if_neg plain, if_pos nonempty]

theorem Ready.confined {vault vault' : Credentials} {key value : String} {given : Json}
    (ready : Ready cfg vault key given value vault') : value = "" ∨ "vault://".toList <+: value.toList := by
  cases ready with
  | reference isReference => exact Or.inr (classify_reference isReference)
  | plaintext => exact Or.inr (by rw [String.toList_append]; exact List.prefix_append _ _)
  | cleared => exact Or.inl rfl

theorem resolveMaybeRef_vault (collation : String → String → Bool) (vault : Credentials) (name : String) :
    resolveMaybeRef collation vault ("vault://" ++ name) = resolveVaultApiToken collation vault name := by
  rw [resolveMaybeRef, Daimon.Proof.Vault.stripPrefix?_append]

theorem Ready.resolve {vault vault' : Credentials} {key value : String} {given : Json}
    (ready : Ready cfg vault key given value vault') :
    resolveMaybeRef cfg.collation vault' value = target cfg vault given := by
  cases ready with
  | reference isReference => rw [target, isReference]
  | plaintext isPlaintext holds => rw [target, isPlaintext, resolveMaybeRef_vault, holds, if_pos rfl]
  | cleared isCleared =>
      rw [target, isCleared]
      rfl

/-- A value that was in the table resolves to what it did or, if it refers to the key's credential, to the new text. -/
theorem Ready.former {vault vault' : Credentials} {key value : String} {given : Json}
    (ready : Ready cfg vault key given value vault') (former : String) :
    resolveMaybeRef cfg.collation vault' former = resolveMaybeRef cfg.collation vault former ∨
      resolveMaybeRef cfg.collation vault' former = target cfg vault given := by
  cases ready with
  | reference | cleared => exact Or.inl rfl
  | plaintext isPlaintext holds =>
      cases stripped : Daimon.Broker.stripPrefix? "vault://" former with
      | none =>
          apply Or.inl
          rw [resolveMaybeRef, resolveMaybeRef, stripped]
      | some name =>
          rw [Daimon.Proof.Vault.stripPrefix?_eq_some stripped, resolveMaybeRef_vault, resolveMaybeRef_vault, holds]
          split
          · exact Or.inr (by rw [target, isPlaintext])
          · exact Or.inl rfl

/-! ## The run -/

section Run
variable (cfg) (s : Shared) (key : String) (given : Json) (lossless : Prop)

structure Untouched (s s' : Shared) : Prop where
  config : s'.config = s.config
  vault : s'.vault = s.vault

/-- The vault has been written, the table has not. -/
def VaultWritten (s' : Shared) : Prop := s'.config = s.config ∧ ∃ value, Ready cfg s.vault key given value s'.vault

def RowWritten (s' : Shared) : Prop :=
  ∃ value, s'.config = s.config.upsert key ⟨.string value, true⟩ ∧ Ready cfg s.vault key given value s'.vault

def AtPhase (s' : Shared) : Phase → Prop
  | .requireAdmin | .pool => Untouched s s'
  | .listVault text => Untouched s s' ∧ classify cfg.texts given = .plaintext text
  | .writeVault text existing => Untouched s s' ∧ classify cfg.texts given = .plaintext text ∧
      existing = (s.vault.byName (vaultName key)).map Daimon.Vault.CredentialRow.id
  | .upsert persistValue => s'.config = s.config ∧ ∃ value, persistValue = .string value ∧
      Ready cfg s.vault key given value s'.vault
  | .delete => False
  | .returned (.error error) =>
      (Untouched s s' ∨ VaultWritten cfg s key given s' ∨ RowWritten cfg s key given s') ∧
        (lossless → Untouched s s' ∨ ∃ e, error = "upsert: " ++ e)
  | _ => RowWritten cfg s key given s'

structure SecretInv (x : Shared × Call) : Prop where
  request : x.2.request = .setSetting key given true
  phase : AtPhase cfg s key given lossless x.1 x.2.phase

end Run

variable {s : Shared} {key : String} {given : Json} {lossless : Prop}

theorem firstPhase_ready {s' : Shared} (untouched : Untouched s s') :
    AtPhase cfg s key given lossless s' ((Request.setSetting key given true).firstPhase cfg) := by
  rw [Request.firstPhase]
  have ready {value : String} (ready : Ready cfg s.vault key given value s.vault) :
      Ready cfg s.vault key given value s'.vault := untouched.vault ▸ ready
  cases shape : classify cfg.texts given with
  | reference text => exact ⟨untouched.config, text, rfl, ready (.reference shape)⟩
  | plaintext text => exact ⟨untouched, shape⟩
  | cleared => exact ⟨untouched.config, "", rfl, ready (.cleared shape)⟩

theorem Early.untouched {s' : Shared} {phase : Phase} (early : Early phase)
    (at_phase : AtPhase cfg s key given lossless s' phase) : Untouched s s' := by
  cases phase with
  | requireAdmin | pool => exact at_phase
  | listVault | writeVault => exact at_phase.1
  | _ => cases early

/-- The vault's statement makes the vault ready for the row. -/
theorem ready_of_written {s' : Shared} {text : String} {existing : Option Uuid} {vault : Credentials}
    (at_phase : AtPhase cfg s key given lossless s' (.writeVault text existing))
    (written : Written s'.vault (vaultName key) text existing vault) :
    Ready cfg s.vault key given ("vault://" ++ vaultName key) vault := by
  obtain ⟨untouched, isPlaintext, found⟩ := at_phase
  rw [untouched.vault] at written
  exact .plaintext isPlaintext (written.resolve found cfg.collation)

theorem pending_upsert {s' : Shared} {call : Call} {config : AppConfig} {site : String}
    (request : call.request = .setSetting key given true) (at_phase : AtPhase cfg s key given lossless s' call.phase)
    (statement : pending s' call = some (config, site)) :
    site = "upsert: " ∧ VaultWritten cfg s key given s' ∧
      ∃ value, config = s.config.upsert key ⟨.string value, true⟩ ∧ Ready cfg s.vault key given value s'.vault := by
  unfold pending at statement
  split at statement
  · rename_i persistValue phase
    rw [phase] at at_phase
    obtain ⟨same, value, rfl, ready⟩ := at_phase
    cases statement
    refine ⟨rfl, ⟨same, value, ready⟩, value, ?_, ready⟩
    rw [same, request]
    rfl
  · rename_i phase
    rw [phase] at at_phase
    exact at_phase.elim
  · cases statement

theorem SecretInv.step {x y : Shared × Call} {answer : Answer} (inv : SecretInv cfg s key given lossless x)
    (unlost : lossless → answer.isLost = false) (moved : alone cfg x answer = some y) :
    SecretInv cfg s key given lossless y := by
  obtain ⟨s', call⟩ := x
  obtain ⟨request, phase⟩ := inv
  simp only at request phase
  have lostly (lost : answer.isLost = true) : ¬ lossless := fun kept => by
    rw [unlost kept] at lost
    cases lost
  cases advance_transition moved with
  | authorized at_phase =>
      rw [at_phase] at phase
      exact ⟨request, phase⟩
  | begun at_phase =>
      rw [at_phase] at phase
      refine ⟨request, ?_⟩
      show AtPhase cfg s key given lossless s' (call.request.firstPhase cfg)
      rw [request]
      exact firstPhase_ready phase
  | listed at_phase =>
      rw [at_phase] at phase
      obtain ⟨untouched, isPlaintext⟩ := phase
      refine ⟨request, untouched, isPlaintext, ?_⟩
      rw [request, untouched.vault]
      rfl
  | stored at_phase written =>
      rw [at_phase] at phase
      refine ⟨request, phase.1.config, "vault://" ++ vaultName key, ?_, ready_of_written phase ?_⟩
      · rw [request]
        rfl
      · rw [request] at written
        exact written
  | storedLost at_phase written lost =>
      rw [at_phase] at phase
      refine ⟨request, Or.inr (Or.inl ⟨phase.1.config, _, ready_of_written phase ?_⟩), fun kept => ?_⟩
      · rw [request] at written
        exact written
      · exact absurd kept (lostly lost)
  | refused early =>
      have untouched := early.untouched phase
      exact ⟨request, Or.inl untouched, fun _ => Or.inl untouched⟩
  | executed statement =>
      obtain ⟨-, -, written⟩ := pending_upsert request phase statement
      exact ⟨request, written⟩
  | executedLost statement =>
      obtain ⟨-, -, written⟩ := pending_upsert request phase statement
      exact ⟨request, Or.inr (Or.inr written), fun kept => absurd kept (lostly rfl)⟩
  | rejected statement =>
      obtain ⟨rfl, vaultWritten, -⟩ := pending_upsert request phase statement
      exact ⟨request, Or.inr (Or.inl vaultWritten), fun _ => Or.inr ⟨_, rfl⟩⟩
  | selected at_phase | unselected at_phase | swapped at_phase | read at_phase | timeoutPushed at_phase
  | intervalPushed at_phase =>
      rw [at_phase] at phase
      exact ⟨request, phase⟩

theorem run_secret {answers : List Answer} {x : Shared × Call}
    (reached : run (alone cfg) (s, .new (.setSetting key given true)) answers = some x) :
    SecretInv cfg s key given (∀ answer ∈ answers, answer.isLost = false) x := by
  have unlost : AllSteps (alone cfg) (fun _ answer => (∀ a ∈ answers, a.isLost = false) → answer.isLost = false)
      (s, .new (.setSetting key given true)) answers :=
    allSteps_of_forall (fun answer member _ all => all answer member) _
  exact invariant_of_allSteps (fun _ _ _ unlost inv moved => inv.step unlost moved) unlost ⟨rfl, rfl, rfl⟩ reached

/-! ## The secret of the key -/

theorem RowWritten.keySecret {s' : Shared} (written : RowWritten cfg s key given s') :
    ∃ value, s'.config.row key = some ⟨.string value, true⟩ ∧
      resolveMaybeRef cfg.collation s'.vault value = target cfg s.vault given := by
  obtain ⟨value, config, ready⟩ := written
  exact ⟨value, by rw [config, row_upsert, if_pos rfl], ready.resolve⟩

theorem keySecret_error {s' : Shared} (left : Untouched s s' ∨ VaultWritten cfg s key given s' ∨ RowWritten cfg s key given s') :
    keySecret cfg s' key = keySecret cfg s key ∨ keySecret cfg s' key = target cfg s.vault given := by
  rcases left with untouched | ⟨config, value, ready⟩ | written
  · apply Or.inl
    rw [keySecret, keySecret, untouched.config, untouched.vault]
  · rw [keySecret, keySecret, config]
    cases s.config.row key with
    | none => exact Or.inl rfl
    | some row =>
        rw [Option.bind_some, Option.bind_some]
        cases row.value.asStr? with
        | none => exact Or.inl rfl
        | some former => exact ready.former former
  · obtain ⟨value, at_key, resolves⟩ := written.keySecret
    apply Or.inr
    rw [keySecret, at_key, Option.bind_some, Json.asStr?, Option.bind_some, resolves]

theorem secret_setting_updates (cfg : Config) (s s' : Shared) (key : String) (value : Json) (answers : List Answer)
    (call : Call) (reached : run (alone cfg) (s, .new (.setSetting key value true)) answers = some (s', call)) :
    (s'.config = s.config ∨ ∃ text, s'.config = s.config.upsert key ⟨.string text, true⟩ ∧
      (text = "" ∨ "vault://".toList <+: text.toList)) ∧
    (∀ text, call.phase = .returned (.ok ()) → secretText cfg.texts value = some text → text ≠ "" →
      ¬ "vault://".toList <+: text.toList →
      ∃ stored, s'.config.row key = some ⟨.string stored, true⟩ ∧
        resolveMaybeRef cfg.collation s'.vault stored = some text) ∧
    ∀ error, call.phase = .returned (.error error) →
      (keySecret cfg s' key = keySecret cfg s key ∨ keySecret cfg s' key = target cfg s.vault value) ∧
      ((∀ answer ∈ answers, answer.isLost = false) → (∀ e, error ≠ "upsert: " ++ e) →
        s'.config = s.config ∧ s'.vault = s.vault) := by
  obtain ⟨-, phase⟩ := run_secret reached
  simp only at phase
  have written (row : RowWritten cfg s key value s') : ∃ text, s'.config = s.config.upsert key ⟨.string text, true⟩ ∧
      (text = "" ∨ "vault://".toList <+: text.toList) := by
    obtain ⟨text, config, ready⟩ := row
    exact ⟨text, config, ready.confined⟩
  refine ⟨?_, ?_, ?_⟩
  · cases at_phase : call.phase with
    | requireAdmin | pool =>
        rw [at_phase] at phase
        exact Or.inl phase.config
    | listVault | writeVault =>
        rw [at_phase] at phase
        exact Or.inl phase.1.config
    | upsert =>
        rw [at_phase] at phase
        exact Or.inl phase.1
    | delete =>
        rw [at_phase] at phase
        exact phase.elim
    | select | store | current | pushTimeout | pushInterval =>
        rw [at_phase] at phase
        exact Or.inr (written phase)
    | returned result =>
        rw [at_phase] at phase
        cases result with
        | ok => exact Or.inr (written phase)
        | error e =>
            rcases phase.1 with untouched | vaultWritten | row
            · exact Or.inl untouched.config
            · exact Or.inl vaultWritten.1
            · exact Or.inr (written row)
  · intro text returned scalar nonempty plain
    rw [returned] at phase
    obtain ⟨stored, at_key, resolves⟩ := RowWritten.keySecret phase
    refine ⟨stored, at_key, resolves.trans ?_⟩
    rw [target, classify_plaintext scalar nonempty plain]
  · intro error returned
    rw [returned] at phase
    refine ⟨keySecret_error phase.1, fun lossless other => ?_⟩
    rcases phase.2 lossless with untouched | ⟨e, same⟩
    · exact ⟨untouched.config, untouched.vault⟩
    · exact absurd same (other e)

/-! ## A key that is saved again -/

def sampleConfig : Config where
  texts := { number := fun _ => "0", brokerError := fun _ => "vault" }
  env := fun _ => none
  collation := Daimon.Proof.Vault.lexical

def savedKey : Shared where
  past := []
  config := ⟨[("llm.openai_key", ⟨.string "vault://settings.llm.openai_key", true⟩)], by decide⟩
  vault := ⟨[⟨1, "settings.llm.openai_key", .apiToken, .apiToken "old"⟩], by decide, by decide⟩
  resolver := ⟨⟨[("llm.openai_key", .string "vault://settings.llm.openai_key")]⟩, 0⟩
  timeout := ⟨300, 0⟩
  interval := ⟨30, 0⟩
  guard := none

def saveAgain : Request := .setSetting "llm.openai_key" (.string "new") true

theorem secret_setting_updates_sample :
    ∃ x, run (alone sampleConfig) (savedKey, .new saveAgain) (List.replicate 10 .done) = some x ∧
      ∃ stored, x.1.config.row "llm.openai_key" = some ⟨.string stored, true⟩ ∧
        resolveMaybeRef sampleConfig.collation x.1.vault stored = some "new" := by
  have ran : (run (alone sampleConfig) (savedKey, .new saveAgain) (List.replicate 10 .done)).isSome = true := by
    decide +kernel
  obtain ⟨⟨s', call⟩, reached⟩ := Option.isSome_iff_exists.mp ran
  have returned : ((run (alone sampleConfig) (savedKey, .new saveAgain) (List.replicate 10 .done)).map fun x =>
      x.2.phase) = some (.returned (.ok ())) := by
    decide +kernel
  rw [reached] at returned
  obtain ⟨-, ok, -⟩ :=
    secret_setting_updates sampleConfig savedKey s' "llm.openai_key" (.string "new") (List.replicate 10 .done) call reached
  exact ⟨_, reached, ok "new" (Option.some.inj returned) rfl (by decide) (by decide)⟩

/-- The vault takes the new text, the statement on the table fails, and the call returns an error. -/
theorem failed_save_changes_secret :
    ∃ x error, run (alone sampleConfig) (savedKey, .new saveAgain)
        [.done, .done, .done, .done, .failed "connection closed"] = some x ∧
      x.2.phase = .returned (.error error) ∧ keySecret sampleConfig savedKey "llm.openai_key" = some "old" ∧
      keySecret sampleConfig x.1 "llm.openai_key" = some "new" := by
  have before : keySecret sampleConfig savedKey "llm.openai_key" = some "old" := by decide +kernel
  have after : ((run (alone sampleConfig) (savedKey, .new saveAgain)
      [.done, .done, .done, .done, .failed "connection closed"]).map fun x =>
        (x.2.phase, keySecret sampleConfig x.1 "llm.openai_key")) =
      some (.returned (.error "upsert: connection closed"), some "new") := by
    decide +kernel
  obtain ⟨x, reached, left⟩ := Option.map_eq_some_iff.mp after
  obtain ⟨returned, secret⟩ := Prod.mk.inj left
  exact ⟨x, _, reached, returned, before, secret⟩

end Daimon.Proof.App.Settings
