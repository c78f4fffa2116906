import Daimon.Proof.Audit.Verify

/-!
# A row hash fixes the history before it

Two scans that both verify and hold the same row hash record the same payloads up to it, whatever the
prev_hash columns say.
-/

namespace Daimon.Proof.Audit
open Daimon.Audit Lib

variable {sha256 : Bytes → Digest} {rows rows' : List Event}

theorem payloads_of_links (agree : rows.map link = rows'.map link) : rows.map payload = rows'.map payload := by
  have payloads (rows : List Event) : (rows.map link).map Link.payload = rows.map payload := by
    rw [List.map_map]
    rfl
  rw [← payloads, ← payloads, agree]

theorem agree_upto (clean : Clean sha256 rows) (clean' : Clean sha256 rows')
    (sound : RowHashSound sha256 (rowInputs rows ++ rowInputs rows')) {i j : Nat} {r r' : Event}
    (at_i : rows[i]? = some r) (at_j : rows'[j]? = some r') (same : r.rowHash = r'.rowHash) :
    i = j ∧ (rows.take (i + 1)).map payload = (rows'.take (i + 1)).map payload := by
  have found : (rows.map link)[i]? = some (link r) := by rw [List.getElem?_map, at_i]; rfl
  have found' : (rows'.map link)[j]? = some (link r') := by rw [List.getElem?_map, at_j]; rfl
  have digests : (link r).digest = (link r').digest := congrArg (Option.getD · []) same
  obtain ⟨rfl, agree⟩ := chain_agree ((clean_iff).mp clean).2 ((clean_iff).mp clean').2 sound found found' digests
  refine ⟨rfl, payloads_of_links ?_⟩
  rw [List.map_take, List.map_take, agree]

/-- Two lists of rows that verify and end in the same row hash have the same payloads, and two that hold
the same row hash anywhere have the same payloads up to it: nothing before a row hash that stays in place
can be edited, put in, taken out or moved. -/
theorem head_fixes_history (sha256 : Bytes → Digest) (rows rows' : List Event) (clean : Clean sha256 rows)
    (clean' : Clean sha256 rows') (sound : RowHashSound sha256 (rowInputs rows ++ rowInputs rows')) :
    (∀ last last', rows.getLast? = some last → rows'.getLast? = some last' → last.rowHash = last'.rowHash →
      rows.length = rows'.length ∧ rows.map payload = rows'.map payload) ∧
    ∀ i j r r', rows[i]? = some r → rows'[j]? = some r' → r.rowHash = r'.rowHash →
      i = j ∧ (rows.take (i + 1)).map payload = (rows'.take (i + 1)).map payload := by
  refine ⟨?_, fun i j r r' at_i at_j same => agree_upto clean clean' sound at_i at_j same⟩
  intro last last' ends ends' same
  rw [List.getLast?_eq_getElem?] at ends ends'
  have bound := (List.getElem?_eq_some_iff.mp ends).1
  have bound' := (List.getElem?_eq_some_iff.mp ends').1
  obtain ⟨place, agree⟩ := agree_upto clean clean' sound ends ends' same
  have lengths : rows.length = rows'.length := by omega
  rw [List.take_of_length_le (by omega), List.take_of_length_le (by omega)] at agree
  exact ⟨lengths, agree⟩

/-! ## A sample of two rows, with their SHA-256 digests -/

def digestOfNat (n : Nat) : Digest :=
  ⟨(List.range 32).map fun i => UInt8.ofNat (n >>> (8 * (31 - i))), by simp⟩

def firstRow : NewRow where
  id := 1
  ts := 820540800000000
  actorId := "operator"
  action := "broker.execute"
  targetRef := some "target://web"
  credentialRef := none
  opSummary := none
  result := "success"
  latencyMs := some 12
  metadata := ⟨"\x7b\x7d", by decide⟩

def secondRow : NewRow :=
  { firstRow with id := 2, ts := 820540801000000, opSummary := some "reload", latencyMs := none }

def firstDigest : Digest := digestOfNat 0xdacea3a7b5f815fa1317091b0edfbd1b718bf69c5da5906859ec4ddf188f48a4

def secondDigest : Digest := digestOfNat 0xfb02d7dbabe68426b30357fba75765163d9459411170f2e6a57ae559c5e754d4

/-- SHA-256 on the inputs of the samples: the length of an input tells the row, the first byte of the hash in
front of it the place. -/
def sampleSha256 (input : Bytes) : Digest :=
  match input.length, input[input.length - 32]? with
  | 112, some 0 => firstDigest
  | 116, some 0xda => secondDigest
  | 116, some 0 => digestOfNat 0xf82c9e6caa769563c4f934106fe70dc34a6bd5817d941fcf15875d1e5dfcf98a
  | 112, some 0xf8 => digestOfNat 0x611812ad5beccaca4da88fdd821ee7a1cefa7821e1046e1f4dcec547bd0ccffa
  | 116, some 0x61 => digestOfNat 0x6a735527d9f001c101e147eeb3d10d6e021eca34a6bab836cd7f383af3078761
  | length, _ => digestOfNat length

def sampleRows : List Event :=
  [⟨firstRow, some genesisPrevHash.val, some firstDigest.val⟩,
    ⟨secondRow, some firstDigest.val, some secondDigest.val⟩]

/-- The sample with the column prev_hash overwritten, which `verify` does not read. -/
def relabelledRows : List Event := sampleRows.map fun r => { r with prevHash := some [] }

theorem sample_texts :
    canonicalize firstRow.auditRow =
      utf8 "2026-01-01T00:00:00.000000Z|operator|broker.execute|target://web|||success|12|\x7b\x7d" ∧
    canonicalize secondRow.auditRow =
      utf8 "2026-01-01T00:00:01.000000Z|operator|broker.execute|target://web||reload|success||\x7b\x7d" := by
  have ts : firstRow.ts.toRfc3339 = "2026-01-01T00:00:00.000000Z" ∧
      secondRow.ts.toRfc3339 = "2026-01-01T00:00:01.000000Z" := by
    decide +kernel
  unfold canonicalize NewRow.auditRow
  rw [ts.1, ts.2]
  refine ⟨congrArg utf8 ?_, congrArg utf8 ?_⟩
  · decide +kernel
  · decide +kernel

/-- Of the second row at the head of a chain. -/
def restartDigest : Digest := digestOfNat 0xf82c9e6caa769563c4f934106fe70dc34a6bd5817d941fcf15875d1e5dfcf98a

/-- Of the first row after the second. -/
def lateDigest : Digest := digestOfNat 0x611812ad5beccaca4da88fdd821ee7a1cefa7821e1046e1f4dcec547bd0ccffa

theorem utf8_ofList (chars : List Char) : utf8 (String.ofList chars) = chars.flatMap String.utf8EncodeChar := by
  rw [utf8, String.toList_ofList]

theorem sample_hashes :
    rowHashOf sampleSha256 (canonicalize firstRow.auditRow) genesisPrevHash.val = firstDigest.val ∧
    rowHashOf sampleSha256 (canonicalize secondRow.auditRow) firstDigest.val = secondDigest.val ∧
    rowHashOf sampleSha256 (canonicalize secondRow.auditRow) genesisPrevHash.val = restartDigest.val ∧
    rowHashOf sampleSha256 (canonicalize firstRow.auditRow) restartDigest.val = lateDigest.val ∧
    rowHashOf sampleSha256 (canonicalize secondRow.auditRow) lateDigest.val ≠ restartDigest.val := by
  obtain ⟨first, second⟩ := sample_texts
  rw [first, second, utf8_ofList, utf8_ofList]
  decide +kernel

theorem hash_firstRow :
    rowHashOf sampleSha256 (canonicalize firstRow.auditRow) genesisPrevHash.val = firstDigest.val := by
  obtain ⟨first, -⟩ := sample_hashes
  exact first

theorem hash_secondRow :
    rowHashOf sampleSha256 (canonicalize secondRow.auditRow) firstDigest.val = secondDigest.val := by
  obtain ⟨-, second, -⟩ := sample_hashes
  exact second

theorem hash_restart :
    rowHashOf sampleSha256 (canonicalize secondRow.auditRow) genesisPrevHash.val = restartDigest.val := by
  obtain ⟨-, -, restart, -⟩ := sample_hashes
  exact restart

theorem hash_late :
    rowHashOf sampleSha256 (canonicalize firstRow.auditRow) restartDigest.val = lateDigest.val := by
  obtain ⟨-, -, -, late, -⟩ := sample_hashes
  exact late

theorem hash_after_late :
    rowHashOf sampleSha256 (canonicalize secondRow.auditRow) lateDigest.val ≠ restartDigest.val := by
  obtain ⟨-, -, -, -, afterLate⟩ := sample_hashes
  exact afterLate

theorem sampleRows_readable : ∀ r ∈ sampleRows, Readable r := by
  have within : firstRow.ts.inDateTime = true ∧ secondRow.ts.inDateTime = true := by decide
  simp only [sampleRows, List.forall_mem_cons]
  exact ⟨⟨within.1, rfl, _, rfl, firstDigest.property⟩, ⟨within.2, rfl, _, rfl, secondDigest.property⟩, by simp⟩

theorem sampleRows_clean : Clean sampleSha256 sampleRows :=
  (clean_iff).mpr ⟨sampleRows_readable, (hash_firstRow).symm, (hash_secondRow).symm, trivial⟩

theorem rowInputs_sampleRows : rowInputs sampleRows =
    [(canonicalize firstRow.auditRow, genesisPrevHash.val), (canonicalize secondRow.auditRow, firstDigest.val)] := rfl

/-- The inputs of the samples, one for the second row at the head of a chain among them. -/
theorem samples_sound : RowHashSound sampleSha256 [(canonicalize firstRow.auditRow, genesisPrevHash.val),
    (canonicalize secondRow.auditRow, firstDigest.val), (canonicalize secondRow.auditRow, genesisPrevHash.val)] := by
  have hashed : [(canonicalize firstRow.auditRow, genesisPrevHash.val),
      (canonicalize secondRow.auditRow, firstDigest.val),
      (canonicalize secondRow.auditRow, genesisPrevHash.val)].map (fun x => rowHashOf sampleSha256 x.1 x.2) =
        [firstDigest.val, secondDigest.val, restartDigest.val] := by
    simp only [List.map_cons, List.map_nil, hash_firstRow, hash_secondRow, hash_restart]
  exact Sound.of_digests hashed (by decide) (by decide)

theorem sampleRows_sound : RowHashSound sampleSha256 (rowInputs sampleRows) :=
  samples_sound.mono (by simp [rowInputs_sampleRows])

theorem sample_history_fixed :
    sampleRows ≠ relabelledRows ∧ sampleRows.map payload = relabelledRows.map payload := by
  have clean' : Clean sampleSha256 relabelledRows := by
    refine (clean_iff).mpr ⟨fun r member => ?_, (hash_firstRow).symm, (hash_secondRow).symm, trivial⟩
    obtain ⟨s, stored, rfl⟩ := List.mem_map.mp member
    obtain ⟨within, -, hash⟩ := sampleRows_readable s stored
    exact ⟨within, rfl, hash⟩
  have inputs : rowInputs relabelledRows = rowInputs sampleRows := rfl
  have sound : RowHashSound sampleSha256 (rowInputs sampleRows ++ rowInputs relabelledRows) :=
    sampleRows_sound.mono (by simp [inputs])
  have relabelled : sampleRows ≠ relabelledRows := by simp [sampleRows, relabelledRows, genesisPrevHash]
  refine ⟨relabelled, ?_⟩
  exact ((head_fixes_history sampleSha256 sampleRows relabelledRows sampleRows_clean clean' sound).1 _ _ rfl rfl rfl).2

end Daimon.Proof.Audit
