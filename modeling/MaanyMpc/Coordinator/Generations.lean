import MaanyMpc.Coordinator.Interchange

/-! # Key generations at the same time

A server ends many calls of `runDkg` over one database. Each looks its wallet up and writes the
share in a later turn, and the backups of the wallets come in between. -/

namespace MaanyMpc

open Transition

variable {V : Type}

/-! ## The calls -/

/-- Where the end of a `runDkg` is. -/
inductive GenerationPhase where
  | looksUp
  /-- `getWalletShare` has answered; whether with a share -/
  | writes (existing : Bool)
  | resolved
  | rejected

structure Generations (V : Type) where
  database : PostgresRedisStorage V
  runs : ℕ → Option (WalletShareUpsert × GenerationPhase)

inductive GenerationAction where
  /-- the share of the `runDkg` with this number is encrypted -/
  | encrypted (k : ℕ) (record : WalletShareUpsert)
  | lookUp (k : ℕ) (now : ℤ)
  | write (k : ℕ) (now : ℤ)
  /-- the end of a backup frame -/
  | backup (now : ℤ) (record : WalletBackupUpsert)

inductive GenerationEvent where
  | lookedUp (k : ℕ) (walletId : String) (existing : Bool)
  | stored (k : ℕ) (record : WalletShareUpsert)
  | rejected (k : ℕ) (record : WalletShareUpsert)
  | backedUp (record : WalletBackupUpsert)
  | backupRejected (record : WalletBackupUpsert)

/-- `if (existing)`. -/
def truthyShare : Option (StorageResult V) → Bool
  | some (.share existing) => existing.isSome
  | _ => false

namespace Generations

/-- `updateWalletShare` if there is a share, `saveWalletShare` if not. -/
def writeShare (js : JsonValues V) (database : PostgresRedisStorage V) (now : ℤ)
    (record : WalletShareUpsert) (existing : Bool) :
    Option (StorageResult V) × PostgresRedisStorage V :=
  database.apply js now (if existing then .updateWalletShare record else .saveWalletShare record)

def step (js : JsonValues V) (s : Generations V) :
    GenerationAction → Option (Generations V × List GenerationEvent)
  | .encrypted k record =>
    match s.runs k with
    | none => some ({ s with runs := Function.update s.runs k (some (record, .looksUp)) }, [])
    | some _ => none
  | .lookUp k now =>
    match s.runs k with
    | some (record, .looksUp) =>
      let (answer, database) := s.database.apply js now (.getWalletShare record.walletId)
      let existing := truthyShare answer
      some (⟨database, Function.update s.runs k (some (record, .writes existing))⟩,
        [.lookedUp k record.walletId existing])
    | _ => none
  | .write k now =>
    match s.runs k with
    | some (record, .writes existing) =>
      match writeShare js s.database now record existing with
      | (some _, database) =>
        some (⟨database, Function.update s.runs k (some (record, .resolved))⟩,
          [.stored k record])
      | (none, database) =>
        some (⟨database, Function.update s.runs k (some (record, .rejected))⟩,
          [.rejected k record])
    | _ => none
  | .backup now record =>
    match s.database.apply js now (.upsertWalletBackup record) with
    | (some _, database) => some ({ s with database }, [.backedUp record])
    | (none, database) => some ({ s with database }, [.backupRejected record])

def machine (js : JsonValues V) : Machine (Generations V) GenerationAction GenerationEvent where
  init := ⟨.new, fun _ => none⟩
  step := step js

end Generations

/-- The record, if it was stored for the wallet. -/
def GenerationEvent.storedFor? (walletId : String) : GenerationEvent → Option WalletShareUpsert
  | .stored _ record => if record.walletId = walletId then some record else none
  | _ => none

/-- The shares of the wallet that were stored, in order. -/
def storedFor (walletId : String) (es : List GenerationEvent) : List WalletShareUpsert :=
  es.filterMap (GenerationEvent.storedFor? walletId)

@[simp] theorem storedFor_append (walletId : String) (es fs : List GenerationEvent) :
    storedFor walletId (es ++ fs) = storedFor walletId es ++ storedFor walletId fs :=
  List.filterMap_append

theorem storedFor_stored (walletId : String) (k : ℕ) (record : WalletShareUpsert) :
    storedFor walletId [.stored k record] =
      if record.walletId = walletId then [record] else [] := by
  by_cases same : record.walletId = walletId <;>
    simp [storedFor, GenerationEvent.storedFor?, same]

/-! ## Steps -/

/-- The rows, without their times. -/
def PostgresRedisStorage.rows (database : PostgresRedisStorage V) (walletId : String) :
    Option WalletShareRow :=
  (database.walletShare walletId).map Stamped.record

namespace Generations

/-- A write goes through if the answer to the look-up is still right. -/
theorem writeShare_ok (js : JsonValues V) {database : PostgresRedisStorage V} (now : ℤ)
    {record : WalletShareUpsert} {existing : Bool}
    (right : (database.rows record.walletId).isSome = existing) :
    (writeShare js database now record existing).1 = some .done ∧
      (writeShare js database now record existing).2.rows =
        Function.update database.rows record.walletId
          (some (serializeShare bufferFromBase64 record)) := by
  cases row : database.walletShare record.walletId with
  | none =>
      obtain rfl : existing = false := by simpa [PostgresRedisStorage.rows, row] using right.symm
      simp only [writeShare, PostgresRedisStorage.apply, PostgresRedisStorage.saveWalletShare, row,
        PostgresRedisStorage.wrote, Bool.false_eq_true, if_false, true_and]
      funext walletId
      by_cases same : walletId = record.walletId <;> simp [PostgresRedisStorage.rows, same]
  | some old =>
      obtain rfl : existing = true := by simpa [PostgresRedisStorage.rows, row] using right.symm
      simp only [writeShare, PostgresRedisStorage.apply, PostgresRedisStorage.updateWalletShare,
        row, PostgresRedisStorage.wrote, if_true, true_and]
      funext walletId
      by_cases same : walletId = record.walletId <;> simp [PostgresRedisStorage.rows, same]

theorem writeShare_refused (js : JsonValues V) {database : PostgresRedisStorage V} (now : ℤ)
    {record : WalletShareUpsert} {existing : Bool}
    (wrong : (database.rows record.walletId).isSome ≠ existing) :
    writeShare js database now record existing = (none, database) := by
  cases row : database.walletShare record.walletId with
  | none =>
      obtain rfl : existing = true := by simpa [PostgresRedisStorage.rows, row] using wrong
      simp [writeShare, PostgresRedisStorage.apply, PostgresRedisStorage.updateWalletShare, row,
        PostgresRedisStorage.wrote]
  | some old =>
      obtain rfl : existing = false := by simpa [PostgresRedisStorage.rows, row] using wrong
      simp [writeShare, PostgresRedisStorage.apply, PostgresRedisStorage.saveWalletShare, row,
        PostgresRedisStorage.wrote]

/-- What an action does. -/
inductive Moves (s : Generations V) :
    GenerationAction → Generations V → List GenerationEvent → Prop where
  | encrypted {k record} (free : s.runs k = none) :
      Moves s (.encrypted k record)
        { s with runs := Function.update s.runs k (some (record, .looksUp)) } []
  | lookedUp {k now record} (at_ : s.runs k = some (record, .looksUp)) :
      Moves s (.lookUp k now)
        { s with runs := Function.update s.runs k
                   (some (record, .writes (s.database.rows record.walletId).isSome)) }
        [.lookedUp k record.walletId (s.database.rows record.walletId).isSome]
  | stored {k now record existing database} (at_ : s.runs k = some (record, .writes existing))
      (right : (s.database.rows record.walletId).isSome = existing)
      (rows : database.rows = Function.update s.database.rows record.walletId
        (some (serializeShare bufferFromBase64 record))) :
      Moves s (.write k now) ⟨database, Function.update s.runs k (some (record, .resolved))⟩
        [.stored k record]
  | rejected {k now record existing} (at_ : s.runs k = some (record, .writes existing))
      (wrong : (s.database.rows record.walletId).isSome ≠ existing) :
      Moves s (.write k now)
        { s with runs := Function.update s.runs k (some (record, .rejected)) }
        [.rejected k record]
  | backedUp {now record database} (rows : database.rows = s.database.rows)
      (known : (s.database.rows record.walletId).isSome)
      (typed : (serializeBackup record).isSome) :
      Moves s (.backup now record) { s with database } [.backedUp record]
  | backupRejected {now record}
      (unfit : ¬ ((s.database.rows record.walletId).isSome ∧ (serializeBackup record).isSome)) :
      Moves s (.backup now record) s [.backupRejected record]

theorem step_moves {js : JsonValues V} {s s' : Generations V} {a : GenerationAction}
    {es : List GenerationEvent} (h : (machine js).step s a = some (s', es)) : Moves s a s' es := by
  change step js s a = some (s', es) at h
  cases a with
  | encrypted k record =>
      rw [step] at h
      cases free : s.runs k with
      | some run =>
          rw [free] at h
          cases h
      | none =>
          rw [free] at h
          cases h
          exact .encrypted free
  | lookUp k now =>
      rw [step] at h
      cases at_ : s.runs k with
      | none =>
          rw [at_] at h
          cases h
      | some run =>
          obtain ⟨record, phase⟩ := run
          rw [at_] at h
          cases phase with
          | looksUp =>
              cases h
              have answer : (s.database.walletShare record.walletId).isSome =
                  (s.database.rows record.walletId).isSome := by
                simp [PostgresRedisStorage.rows]
              simp only [truthyShare, Option.isSome_map, answer]
              exact .lookedUp at_
          | _ => cases h
  | write k now =>
      rw [step] at h
      cases at_ : s.runs k with
      | none =>
          rw [at_] at h
          cases h
      | some run =>
          obtain ⟨record, phase⟩ := run
          rw [at_] at h
          cases phase with
          | writes existing =>
              by_cases right : (s.database.rows record.walletId).isSome = existing
              · obtain ⟨ok, rows⟩ := writeShare_ok js now right
                cases written : writeShare js s.database now record existing with
                | mk answer database =>
                    rw [written] at ok rows
                    cases ok
                    simp only [written, Option.some.injEq, Prod.mk.injEq] at h
                    obtain ⟨rfl, rfl⟩ := h
                    exact .stored at_ right rows
              · simp only [writeShare_refused js now right, Option.some.injEq,
                  Prod.mk.injEq] at h
                obtain ⟨rfl, rfl⟩ := h
                exact .rejected at_ right
          | _ => cases h
  | backup now record =>
      rw [step] at h
      cases row : s.database.walletShare record.walletId with
      | none =>
          simp only [PostgresRedisStorage.apply, PostgresRedisStorage.upsertWalletBackup, row,
            PostgresRedisStorage.wrote, Option.some.injEq, Prod.mk.injEq] at h
          obtain ⟨rfl, rfl⟩ := h
          exact .backupRejected (by simp [PostgresRedisStorage.rows, row])
      | some old =>
          cases typed : serializeBackup record with
          | none =>
              simp only [PostgresRedisStorage.apply, PostgresRedisStorage.upsertWalletBackup, row,
                typed, PostgresRedisStorage.wrote, Option.some.injEq, Prod.mk.injEq] at h
              obtain ⟨rfl, rfl⟩ := h
              exact .backupRejected (by simp [typed])
          | some backup =>
              simp only [PostgresRedisStorage.apply, PostgresRedisStorage.upsertWalletBackup, row,
                typed, PostgresRedisStorage.wrote, Option.some.injEq, Prod.mk.injEq] at h
              obtain ⟨rfl, rfl⟩ := h
              exact .backedUp rfl (by simp [PostgresRedisStorage.rows, row]) (by simp [typed])

/-! ## Runs -/

/-- What the database and the calls under way know of the past. -/
structure Ledger (es : List GenerationEvent) (s : Generations V) : Prop where
  rows : ∀ walletId, s.database.rows walletId =
    (storedFor walletId es).getLast?.map (serializeShare bufferFromBase64)
  /-- before its look-up a call has not looked up -/
  early : ∀ k walletId existing, .lookedUp k walletId existing ∈ es →
    s.runs k ≠ none ∧ ∀ record, s.runs k ≠ some (record, .looksUp)
  /-- a call that is about to write was told what was stored by then -/
  told : ∀ k record existing, s.runs k = some (record, .writes existing) →
    (∀ walletId found, .lookedUp k walletId found ∈ es → found = existing) ∧
      ∃ before after, es = before ++ .lookedUp k record.walletId existing :: after ∧
        (existing = true ↔ storedFor record.walletId before ≠ [])

theorem getLast?_isSome {α : Type} (xs : List α) : xs.getLast?.isSome ↔ xs ≠ [] := by
  cases xs <;> simp

theorem Ledger.known_iff {es : List GenerationEvent} {s : Generations V} (ledger : Ledger es s)
    (walletId : String) :
    (s.database.rows walletId).isSome ↔ storedFor walletId es ≠ [] := by
  rw [ledger.rows, Option.isSome_map, getLast?_isSome]

/-- A call that ends, or has not looked up yet, and no look-up. -/
theorem Ledger.next {es emitted : List GenerationEvent} {s s' : Generations V}
    (ledger : Ledger es s)
    (quiet : ∀ k walletId existing, .lookedUp k walletId existing ∉ emitted)
    (rows : ∀ walletId, s'.database.rows walletId =
      (storedFor walletId (es ++ emitted)).getLast?.map (serializeShare bufferFromBase64))
    (runs : ∀ k, s'.runs k = s.runs k ∨
      (∀ record existing, s'.runs k ≠ some (record, .writes existing)) ∧
        (s.runs k = none ∨ s'.runs k ≠ none ∧ ∀ record, s'.runs k ≠ some (record, .looksUp))) :
    Ledger (es ++ emitted) s' where
  rows := rows
  early k walletId existing mem := by
    have mem := (List.mem_append.mp mem).resolve_right (quiet k walletId existing)
    obtain ⟨entered, later⟩ := ledger.early k walletId existing mem
    obtain same | ⟨_, free | ended⟩ := runs k
    · rw [same]
      exact ⟨entered, later⟩
    · exact absurd free entered
    · exact ended
  told k record existing at_ := by
    obtain same | ⟨ended, _⟩ := runs k
    · rw [same] at at_
      obtain ⟨only, before, after, split, stored⟩ := ledger.told k record existing at_
      refine ⟨fun walletId found mem => only walletId found ?_, before, after ++ emitted, ?_,
        stored⟩
      · exact (List.mem_append.mp mem).resolve_right (quiet k walletId found)
      · simp [split]
    · exact absurd at_ (ended record existing)

theorem Ledger.step {es emitted : List GenerationEvent} {s s' : Generations V}
    {a : GenerationAction} (ledger : Ledger es s) (h : Moves s a s' emitted) :
    Ledger (es ++ emitted) s' := by
  have others {k : ℕ} {run : WalletShareUpsert × GenerationPhase} (j : ℕ) (other : j ≠ k) :
      Function.update s.runs k (some run) j = s.runs j := Function.update_of_ne other ..
  cases h with
  | @encrypted k record free =>
      refine ledger.next (by simp) (by simpa using ledger.rows) fun j => ?_
      by_cases own : j = k
      · subst own
        exact .inr ⟨by simp, .inl free⟩
      · exact .inl (others j own)
  | @lookedUp k now record at_ =>
      refine ⟨by simpa [storedFor, GenerationEvent.storedFor?] using ledger.rows,
        fun j walletId existing mem => ?_, fun j written existing writes => ?_⟩
      · by_cases own : j = k
        · subst own
          simp
        · simp only [others j own]
          refine ledger.early j walletId existing ?_
          simpa [own] using mem
      · by_cases own : j = k
        · subst own
          simp only [Function.update_self, Option.some.injEq, Prod.mk.injEq,
            GenerationPhase.writes.injEq] at writes
          obtain ⟨rfl, rfl⟩ := writes
          refine ⟨fun walletId found mem => ?_, es, [], rfl, ledger.known_iff _⟩
          obtain old | new := List.mem_append.mp mem
          · exact absurd at_ ((ledger.early _ walletId found old).2 _)
          · simp only [List.mem_singleton, GenerationEvent.lookedUp.injEq] at new
            exact new.2.2
        · simp only [others j own] at writes
          obtain ⟨only, before, after, split, stored⟩ := ledger.told j written existing writes
          refine ⟨fun walletId found mem => only walletId found (by simpa [own] using mem),
            before, after ++ [_], by rw [split]; simp; rfl, stored⟩
  | @stored k now record existing database at_ right rows =>
      refine ledger.next (by simp) (fun walletId => ?_) fun j => ?_
      · rw [storedFor_append, storedFor_stored, rows]
        by_cases same : record.walletId = walletId
        · subst same
          simp
        · simpa [same, Function.update_of_ne (Ne.symm same)] using ledger.rows walletId
      · by_cases own : j = k
        · subst own
          exact .inr ⟨by simp, .inr ⟨by simp, by simp⟩⟩
        · exact .inl (others j own)
  | @rejected k now record existing at_ wrong =>
      refine ledger.next (by simp)
        (by simpa [storedFor, GenerationEvent.storedFor?] using ledger.rows) fun j => ?_
      by_cases own : j = k
      · subst own
        exact .inr ⟨by simp, .inr ⟨by simp, by simp⟩⟩
      · exact .inl (others j own)
  | backedUp rows known typed =>
      refine ledger.next (by simp) (fun walletId => ?_) fun j => .inl rfl
      simpa [storedFor, GenerationEvent.storedFor?, rows] using ledger.rows walletId
  | backupRejected unfit =>
      refine ledger.next (by simp) ?_ fun j => .inl rfl
      simpa [storedFor, GenerationEvent.storedFor?] using ledger.rows

section Runs

variable {js : JsonValues V} {taken : List (Generations V × GenerationAction)}
  {es emitted : List GenerationEvent} {s s' : Generations V}

theorem ledger_init : Ledger [] (⟨.new, fun _ => none⟩ : Generations V) where
  rows _ := rfl
  early _ _ _ mem := by cases mem
  told _ _ _ at_ := by cases at_

theorem run_ledger (run : (machine js).Run taken es s) : Ledger es s :=
  run.invariant Ledger ledger_init fun ledger hstep => ledger.step (step_moves hstep)

/-- The share of a wallet is the last one that was stored for it. -/
theorem share_of_last_generation (run : (machine js).Run taken es s) (walletId : String) :
    s.database.rows walletId =
      (storedFor walletId es).getLast?.map (serializeShare bufferFromBase64) :=
  (run_ledger run).rows walletId

theorem storedFor_split (walletId : String) (before after : List GenerationEvent) (k : ℕ)
    (other : String) (existing : Bool) :
    storedFor walletId (before ++ .lookedUp k other existing :: after) =
      storedFor walletId before ++ storedFor walletId after := by
  simp [storedFor, GenerationEvent.storedFor?, List.filterMap_cons]

/-- A `runDkg` is rejected at its write if and only if it was the first for its wallet at its
look-up and another one has stored a share since. -/
theorem generation_rejected_iff (run : (machine js).Run taken es s) {k : ℕ} {now : ℤ}
    (hstep : (machine js).step s (.write k now) = some (s', emitted)) :
    ∃ record, (emitted = [.stored k record] ∨ emitted = [.rejected k record]) ∧
      (emitted = [.rejected k record] ↔
        ∃ before after, es = before ++ .lookedUp k record.walletId false :: after ∧
          storedFor record.walletId before = [] ∧ storedFor record.walletId after ≠ []) := by
  have ledger := run_ledger run
  cases step_moves hstep with
  | @stored _ _ record existing database at_ right rows =>
      refine ⟨record, .inl rfl, iff_of_false (by simp) ?_⟩
      rintro ⟨before, after, split, _, since⟩
      have mem : .lookedUp k record.walletId false ∈ es := by simp [split]
      obtain rfl := (ledger.told k record existing at_).1 _ _ mem
      have none : storedFor record.walletId es = [] := by
        by_contra known
        rw [(ledger.known_iff _).mpr known] at right
        cases right
      rw [split, storedFor_split, List.append_eq_nil_iff] at none
      exact since none.2
  | @rejected _ _ record existing at_ wrong =>
      refine ⟨record, .inr rfl, iff_of_true rfl ?_⟩
      obtain ⟨_, before, after, split, stored⟩ := ledger.told k record existing at_
      cases existing with
      | true =>
          have known : storedFor record.walletId es ≠ [] := by
            rw [split, storedFor_split]
            exact List.append_ne_nil_of_left_ne_nil (stored.mp rfl) _
          exact absurd ((ledger.known_iff _).mpr known) wrong
      | false =>
          have first : storedFor record.walletId before = [] := by
            by_contra known
            cases stored.mpr known
          have known := (ledger.known_iff record.walletId).mp (Bool.eq_true_of_not_eq_false wrong)
          rw [split, storedFor_split, first, List.nil_append] at known
          exact ⟨before, after, split, first, known⟩

/-- A backup is stored if and only if a `runDkg` has stored a share for the wallet before and the
values have the types of the columns. -/
theorem backup_after_generation_iff (run : (machine js).Run taken es s) {now : ℤ}
    {record : WalletBackupUpsert}
    (hstep : (machine js).step s (.backup now record) = some (s', emitted)) :
    .backedUp record ∈ emitted ↔
      storedFor record.walletId es ≠ [] ∧ (serializeBackup record).isSome := by
  have ledger := run_ledger run
  rw [← ledger.known_iff]
  cases step_moves hstep with
  | backedUp rows known typed => simp [known, typed]
  | backupRejected unfit => simpa using unfit

end Runs

/-! ## Two first generations -/

def sampleBackup : WalletBackupUpsert where
  walletId := "w"
  ciphertextKind := .string "device"
  ciphertextCurve := .string "secp256k1"
  ciphertextScheme := .string "ecdsa-2p"
  ciphertextKeyId := .string "01"
  ciphertextThreshold := .finite 2
  ciphertextShareCount := .finite 3
  ciphertextLabel := ""
  ciphertextBlob := "AQID"
  encryptedCoordinatorFragment := "AQID"

/-- Two calls of `runDkg` find no share for their wallet. The second one stores its own, the first
one is rejected, and a backup is stored. -/
theorem sample_run : ∃ taken s s' s'',
    (machine noValues).Run taken
      [.lookedUp 0 "w" false, .lookedUp 1 "w" false, .stored 1 sampleWalletShare] s ∧
    (machine noValues).step s (.write 0 4) = some (s', [.rejected 0 sampleWalletShare]) ∧
    (machine noValues).step s (.backup 5 sampleBackup) = some (s'', [.backedUp sampleBackup]) := by
  have started := ((Machine.Run.start (M := machine noValues)).next
    (a := .encrypted 0 sampleWalletShare) rfl).next (a := .encrypted 1 sampleWalletShare) rfl
  have told := (started.next (a := .lookUp 0 1) rfl).next (a := .lookUp 1 2) rfl
  exact ⟨_, _, _, _, told.next (a := .write 1 3) rfl, rfl, rfl⟩

theorem share_of_last_generation_second : ∃ taken s,
    (machine noValues).Run taken
      [.lookedUp 0 "w" false, .lookedUp 1 "w" false, .stored 1 sampleWalletShare] s ∧
    s.database.rows "w" = some (serializeShare bufferFromBase64 sampleWalletShare) := by
  obtain ⟨taken, s, _, _, run, _⟩ := sample_run
  exact ⟨taken, s, run, share_of_last_generation run "w"⟩

theorem generation_rejected_iff_second : ∃ taken s s',
    (machine noValues).Run taken
      [.lookedUp 0 "w" false, .lookedUp 1 "w" false, .stored 1 sampleWalletShare] s ∧
    (machine noValues).step s (.write 0 4) = some (s', [.rejected 0 sampleWalletShare]) ∧
    ∃ (record : WalletShareUpsert) (before after : List GenerationEvent),
      ([.lookedUp 0 "w" false, .lookedUp 1 "w" false, .stored 1 sampleWalletShare] :
        List GenerationEvent) = before ++ .lookedUp 0 record.walletId false :: after ∧
      storedFor record.walletId before = [] ∧ storedFor record.walletId after ≠ [] := by
  obtain ⟨taken, s, s', _, run, rejected, _⟩ := sample_run
  obtain ⟨record, outcome, iff⟩ := generation_rejected_iff run rejected
  obtain stored | same := outcome
  · simp at stored
  · exact ⟨taken, s, s', run, rejected, record, iff.mp same⟩

theorem backup_after_generation_iff_stored : ∃ taken s s' es,
    (machine noValues).Run taken es s ∧
    (machine noValues).step s (.backup 5 sampleBackup) = some (s', [.backedUp sampleBackup]) ∧
    storedFor "w" es ≠ [] := by
  obtain ⟨taken, s, _, s', run, _, stored⟩ := sample_run
  have known := (backup_after_generation_iff run stored).mp (List.mem_singleton_self _)
  exact ⟨taken, s, s', _, run, stored, known.1⟩

end Generations

end MaanyMpc
