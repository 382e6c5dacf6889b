import Titlan.Core
import Titlan.Foundation.Relational
import Titlan.Foundation.Transaction

/-! # The schema and its migrations

The tables of the client's database, and `migrate`, which every open runs. It creates the table of applied
migrations if it is not there, reads the highest version once, and applies the steps above it, each in a
transaction of its own that also records it. The process can die after any command: what the next open
finds is the durable part of the session.

Types are those the statements declare; `CHECK` and `REFERENCES` clauses constrain later writes only and
are left out, and so is the key that `Store::open` sets before. -/

namespace Titlan.Storage

open Foundation Relational

/-! ## Tables -/

section Columns

variable (name : String) (type : ColumnType)

/-- A column that may be `NULL`. -/
def nullable : Column := ⟨name, type, false, .null⟩

/-- A `NOT NULL` column. -/
def required : Column := ⟨name, type, true, .null⟩

/-- A `NOT NULL` column with a default. -/
def defaulted (default : Value) : Column := ⟨name, type, true, default⟩

end Columns

/-- `schema_migrations`. -/
def schemaMigrations : TableDef where
  name := "schema_migrations"
  columns := [nullable "version" .integer, required "applied_at" .integer]
  key := ["version"]

/-- `conversations`, as the first version has it. -/
def conversations : TableDef where
  name := "conversations"
  columns := [nullable "id" .blob, required "peer_address" .text, required "relay_url" .text,
    nullable "mailbox_send" .blob, nullable "mailbox_recv" .blob,
    defaulted "padding_profile" .text (.text "default"), required "created_at" .integer]
  key := ["id"]

/-- The tables of `V1_DDL`. -/
def v1Tables : List TableDef :=
  [⟨"local_identity", [nullable "id" .integer, required "address_name" .text,
      required "registration_id" .integer, required "identity_keypair" .blob,
      required "created_at" .integer], ["id"]⟩,
    ⟨"sessions", [required "address" .text, required "device_id" .integer, required "record" .blob,
      required "updated_at" .integer], ["address", "device_id"]⟩,
    ⟨"identities", [nullable "address" .text, required "identity_key" .blob,
      required "trusted_at" .integer], ["address"]⟩,
    ⟨"prekeys", [nullable "id" .integer, required "record" .blob], ["id"]⟩,
    ⟨"signed_prekeys", [nullable "id" .integer, required "record" .blob], ["id"]⟩,
    ⟨"kyber_prekeys", [nullable "id" .integer, required "record" .blob,
      defaulted "used" .integer (.integer 0)], ["id"]⟩,
    conversations,
    ⟨"messages", [nullable "id" .blob, required "conversation_id" .blob, required "direction" .integer,
      required "payload_type" .integer, required "type_version" .integer, required "body" .blob,
      nullable "sent_at" .integer, nullable "received_at" .integer,
      defaulted "status" .integer (.integer 0)], ["id"]⟩]

/-- `V1_DDL`. -/
def v1Ddl : List Statement :=
  v1Tables.map .createTable ++ [.createIndex "idx_messages_conversation" "messages" "conversation_id"]

/-- The columns that a version adds to `conversations`. -/
def addedIn : ℕ → List Column
  | 2 => [nullable "relay_pin" .blob]
  | 3 => [nullable "recovery_role" .integer, nullable "recovery_own_contrib" .blob,
      nullable "recovery_peer_contrib" .blob, nullable "recovery_root" .blob,
      defaulted "recovery_own_gen" .integer (.integer 0), defaulted "recovery_peer_gen" .integer (.integer 0)]
  | 4 => [nullable "label" .text]
  | _ => []

/-! ## `migrate` -/

/-- One of the `if current < version` blocks. -/
structure MigrationStep where
  version : ℕ
  ddl : List Statement

/-- A step that adds columns to `conversations`. -/
def addColumnsStep (version : ℕ) : MigrationStep :=
  ⟨version, (addedIn version).map (.addColumn "conversations")⟩

/-- The steps, in order. -/
def steps : List MigrationStep := [⟨1, v1Ddl⟩, addColumnsStep 2, addColumnsStep 3, addColumnsStep 4]

/-- The statements of a step. `unixepoch()` is read when the step is recorded. -/
def MigrationStep.body (clock : ℕ → ℤ) (s : MigrationStep) : List Statement :=
  s.ddl ++ [.insert "schema_migrations" [.integer s.version, .integer (clock s.version)]]

/-- The versions that are recorded. -/
def versions (m : Sheet) : List ℤ :=
  m.rows.filterMap fun row =>
    match m.value row "version" with
    | some (.integer n) => some n
    | _ => none

/-- `SELECT COALESCE(MAX(version), 0) FROM schema_migrations`, read as a `u32`. -/
def schemaVersion (db : Database) : Option ℕ := do
  let m ← db.sheet "schema_migrations"
  let current := (versions m).max?.getD 0
  if 0 ≤ current ∧ current ≤ u32Max then some current.toNat else none

/-- The commands of the steps above the version that was read. -/
def stepCommands (clock : ℕ → ℤ) (current : ℕ) : List (Command Statement) :=
  transactions ((steps.filter fun s => current < s.version).map (·.body clock))

/-- `migrate`, run to its end. -/
def migrate (clock : ℕ → ℤ) (db : Database) : Option Database := do
  let created ← db.exec (.createTableIfNotExists schemaMigrations)
  let current ← schemaVersion created
  let s ← run (Session.step Database.exec) ⟨created, none⟩ (stepCommands clock current)
  return s.durable

/-- The death of a process in `migrate`. -/
structure Death where
  clock : ℕ → ℤ
  /-- How many commands it has executed. -/
  after : ℕ

/-- What a process that dies in `migrate` leaves. -/
def migrateDying (db : Database) (death : Death) : Option Database :=
  match death.after with
  | 0 => some db
  | n + 1 => do
    let created ← db.exec (.createTableIfNotExists schemaMigrations)
    let current ← schemaVersion created
    let s ← run (Session.step Database.exec) ⟨created, none⟩ ((stepCommands death.clock current).take n)
    return s.durable

end Titlan.Storage
