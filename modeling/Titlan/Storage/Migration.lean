import Titlan.Storage.Schema

/-! # Migrations lose nothing

From any recorded version, with any rows, and after any number of opens that died on the way, an open that
completes has brought the database to the last version. What was there is still there: tables only get
columns, with their defaults in the old rows, and the table of migrations gets rows. A step is recorded in
the transaction that applies it, so the version tells which columns there are. -/

namespace Titlan.Storage

open Foundation Relational Database

/-! ## Databases at a version -/

/-- The columns that the versions up to this one add to `conversations`. -/
def columnsAdded : ℕ → List Column
  | 0 => []
  | v + 1 => columnsAdded v ++ addedIn (v + 1)

/-- The columns of a table of the first version, at a version. -/
def columnsAt (v : ℕ) (d : TableDef) : List Column :=
  d.columns ++ if d.name = "conversations" then columnsAdded v else []

/-- The version on record; a database without a record is at version 0. -/
def recordedVersion (db : Database) : Option ℕ :=
  if (db.sheet "schema_migrations").isNone then some 0 else schemaVersion db

/-- A database at a recorded version: the tables of that version, with arbitrary rows. -/
structure AtVersion (v : ℕ) (db : Database) : Prop where
  recorded : recordedVersion db = some v
  /-- The record has its columns, if it is there. -/
  migrations : ∀ m, db.sheet "schema_migrations" = some m →
    m.columns = schemaMigrations.columns ∧ m.key = schemaMigrations.key
  /-- Before the first step there are no tables. -/
  absent : v = 0 → (∀ d ∈ v1Tables, db.sheet d.name = none) ∧ "idx_messages_conversation" ∉ db.indexes
  /-- After it there are all. -/
  present : v ≠ 0 → ∀ d ∈ v1Tables, ∃ t, db.sheet d.name = some t ∧ t.columns = columnsAt v d ∧ t.key = d.key

/-- What a migration from one version to another does to a database. -/
structure Upgraded (v k : ℕ) (db db' : Database) : Prop where
  atVersion : AtVersion k db'
  conversations : ∀ t, db.sheet "conversations" = some t →
    ∃ cs, columnsAdded k = columnsAdded v ++ cs ∧ db'.sheet "conversations" = some (t.extend cs)
  migrations : ∀ m, db.sheet "schema_migrations" = some m →
    ∃ m' more, db'.sheet "schema_migrations" = some m' ∧ m'.columns = m.columns ∧ m'.rows = m.rows ++ more
  others : ∀ name t, name ≠ "conversations" → name ≠ "schema_migrations" →
    db.sheet name = some t → db'.sheet name = some t

theorem AtVersion.upgraded_refl {v : ℕ} {db : Database} (h : AtVersion v db) : Upgraded v v db db where
  atVersion := h
  conversations t ht := ⟨[], (List.append_nil _).symm, by rw [Sheet.extend_nil, ht]⟩
  migrations m hm := ⟨m, [], hm, rfl, (List.append_nil _).symm⟩
  others _ _ _ _ ht := ht

theorem Upgraded.trans {v k l : ℕ} {db db' db'' : Database} (h : Upgraded v k db db')
    (h' : Upgraded k l db' db'') : Upgraded v l db db'' where
  atVersion := h'.atVersion
  conversations t ht := by
    obtain ⟨cs, hcs, ht'⟩ := h.conversations t ht
    obtain ⟨cs', hcs', ht''⟩ := h'.conversations _ ht'
    exact ⟨cs ++ cs', by rw [hcs', hcs, List.append_assoc], by rw [ht'', Sheet.extend_extend]⟩
  migrations m hm := by
    obtain ⟨m', more, hm', hcolumns, hrows⟩ := h.migrations m hm
    obtain ⟨m'', more', hm'', hcolumns', hrows'⟩ := h'.migrations m' hm'
    exact ⟨m'', more ++ more', hm'', hcolumns'.trans hcolumns, by rw [hrows', hrows, List.append_assoc]⟩
  others name t hconv hmig ht := h'.others name t hconv hmig (h.others name t hconv hmig ht)

/-! ## The record -/

section Record

variable {db db' : Database} {m : Sheet} {v : ℕ}

/-- The version of a record is its highest. -/
theorem schemaVersion_eq_some_iff (hm : db.sheet "schema_migrations" = some m) :
    schemaVersion db = some v ↔ (versions m).max?.getD 0 = v ∧ v ≤ u32Max := by
  simp only [schemaVersion, hm, Option.bind_eq_bind, Option.bind_some]
  constructor
  · intro h
    split at h
    case isTrue hrange =>
      cases h
      omega
    case isFalse => cases h
  · rintro ⟨hmax, hle⟩
    rw [hmax, if_pos ⟨by omega, by omega⟩, Int.toNat_natCast]

/-- No version is above the highest. -/
theorem le_of_mem_versions (hmax : (versions m).max?.getD 0 = v) {n : ℤ} (hn : n ∈ versions m) : n ≤ v := by
  cases hm : (versions m).max? with
  | none =>
    rw [List.max?_eq_none_iff.mp hm] at hn
    cases hn
  | some b =>
    rw [hm, Option.getD_some] at hmax
    exact hmax ▸ (List.max?_eq_some_iff.mp hm).2 n hn

theorem value_version (hcolumns : m.columns = schemaMigrations.columns) (n clock : ℤ) :
    m.value [.integer n, .integer clock] "version" = some (.integer n) := by
  simp [Sheet.value, Sheet.names, hcolumns, schemaMigrations, nullable, required]

/-- A version above the highest can be recorded. -/
theorem admits_version (hcolumns : m.columns = schemaMigrations.columns)
    (hkey : m.key = schemaMigrations.key) (hmax : (versions m).max?.getD 0 = v) (clock : ℤ) :
    m.Admits [.integer (v + 1 : ℕ), .integer clock] := by
  refine ⟨by simp [hcolumns, schemaMigrations], ?_, fun old hold heq => ?_⟩
  · simp [hcolumns, schemaMigrations, nullable, required]
  · have hversion : m.value old "version" = some (.integer (v + 1 : ℕ)) := by
      rw [hkey] at heq
      simpa [schemaMigrations, value_version hcolumns] using heq
    have hmem : ((v + 1 : ℕ) : ℤ) ∈ versions m := List.mem_filterMap.mpr ⟨old, hold, by rw [hversion]⟩
    have hle := le_of_mem_versions hmax hmem
    omega

/-- A step can be recorded: no row has its version yet. -/
theorem record_step (clock : ℤ) (hm : db.sheet "schema_migrations" = some m)
    (hcolumns : m.columns = schemaMigrations.columns) (hkey : m.key = schemaMigrations.key)
    (hv : schemaVersion db = some v) (hlt : v < u32Max) :
    ∃ m', exec db (.insert "schema_migrations" [.integer (v + 1 : ℕ), .integer clock]) =
        some (db.put "schema_migrations" m') ∧
      m'.columns = m.columns ∧ m'.key = m.key ∧
      m'.rows = m.rows ++ [[.integer (v + 1 : ℕ), .integer clock]] ∧
      schemaVersion (db.put "schema_migrations" m') = some (v + 1) := by
  obtain ⟨hmax, -⟩ := (schemaVersion_eq_some_iff hm).mp hv
  obtain ⟨m', hinsert, hcolumns', hkey', hrows'⟩ :=
    Sheet.insert_eq_some (admits_version hcolumns hkey hmax clock)
  have hversions : versions m' = versions m ++ [((v + 1 : ℕ) : ℤ)] := by
    rw [versions, versions, hrows', Sheet.value_congr hcolumns', List.filterMap_append]
    simp [value_version hcolumns]
  have hmax' : (versions m').max? = some ((v + 1 : ℕ) : ℤ) := by
    rw [List.max?_eq_some_iff, hversions]
    refine ⟨List.mem_append_right _ List.mem_cons_self, fun b hb => ?_⟩
    obtain hb | hb := List.mem_append.mp hb
    · have hle := le_of_mem_versions hmax hb
      omega
    · exact (List.mem_singleton.mp hb).le
  refine ⟨m', ?_, hcolumns', hkey', hrows', ?_⟩
  · simp only [exec, hm, hinsert, Option.bind_eq_bind, Option.bind_some, Option.pure_def]
  · rw [schemaVersion_eq_some_iff (sheet_put_self db _ m'), hmax']
    exact ⟨by simp, hlt⟩

end Record

/-! ## The steps -/

section Steps

variable {db db₁ : Database} {v : ℕ} (clock : ℕ → ℤ)

/-- The record is no table of the first version. -/
theorem name_ne_schemaMigrations : ∀ d ∈ v1Tables, d.name ≠ "schema_migrations" := by decide

theorem eq_conversations : ∀ d ∈ v1Tables, d.name = "conversations" → d = conversations := by decide

variable {m : Sheet}

theorem AtVersion.schemaVersion (h : AtVersion v db)
    (hm : db.sheet "schema_migrations" = some m) : schemaVersion db = some v := by
  have hrecorded := h.recorded
  rw [recordedVersion, hm] at hrecorded
  exact hrecorded

/-- Above version 0 there is a record. -/
theorem AtVersion.exists_record (h : AtVersion v db) (hv : v ≠ 0) :
    ∃ m, db.sheet "schema_migrations" = some m := by
  cases hm : db.sheet "schema_migrations" with
  | none =>
    have hrecorded := h.recorded
    rw [recordedVersion, hm] at hrecorded
    exact absurd (Option.some.inj hrecorded).symm hv
  | some m => exact ⟨m, rfl⟩

/-- `CREATE TABLE IF NOT EXISTS schema_migrations`. -/
theorem exec_create (h : AtVersion v db) :
    ∃ db₁, exec db (.createTableIfNotExists schemaMigrations) = some db₁ ∧
      (∃ m, db₁.sheet "schema_migrations" = some m) ∧ Upgraded v v db db₁ := by
  cases hm : db.sheet "schema_migrations" with
  | some m =>
    refine ⟨db, ?_, ⟨m, hm⟩, h.upgraded_refl⟩
    simp [exec, schemaMigrations, hm]
  | none =>
    have hv : v = 0 := by
      have hrecorded := h.recorded
      rw [recordedVersion, hm] at hrecorded
      exact (Option.some.inj hrecorded).symm
    subst hv
    obtain ⟨habsent, hindex⟩ := h.absent rfl
    refine ⟨db.put "schema_migrations" (.new schemaMigrations), ?_, ⟨_, sheet_put_self ..⟩, ?_, ?_, ?_, ?_⟩
    · simp [exec, schemaMigrations, hm]
    · refine ⟨?_, ?_, fun _ => ⟨fun d hd => ?_, hindex⟩, fun h0 => absurd rfl h0⟩
      · rw [recordedVersion, sheet_put_self]
        rfl
      · intro m' hm'
        rw [sheet_put_self] at hm'
        cases hm'
        exact ⟨rfl, rfl⟩
      · rw [sheet_put_of_ne db _ (name_ne_schemaMigrations d hd), habsent d hd]
    · intro t ht
      cases (habsent conversations (by decide)).symm.trans ht
    · intro m hm'
      rw [hm] at hm'
      cases hm'
    · intro name t _ hmig ht
      rw [sheet_put_of_ne db _ hmig, ht]

/-- A step ends with its record, in the same transaction as the tables of its version. -/
theorem record_upgraded (h : AtVersion v db) (hm : db.sheet "schema_migrations" = some m)
    (hlt : v < u32Max) (hm₁ : db₁.sheet "schema_migrations" = some m)
    (hpresent : ∀ d ∈ v1Tables, ∃ t, db₁.sheet d.name = some t ∧ t.columns = columnsAt (v + 1) d ∧
      t.key = d.key)
    (hconversations : ∀ t, db.sheet "conversations" = some t →
      ∃ cs, columnsAdded (v + 1) = columnsAdded v ++ cs ∧ db₁.sheet "conversations" = some (t.extend cs))
    (hothers : ∀ name t, name ≠ "conversations" → name ≠ "schema_migrations" →
      db.sheet name = some t → db₁.sheet name = some t) :
    ∃ db', exec db₁ (.insert "schema_migrations" [.integer (v + 1 : ℕ), .integer (clock (v + 1))]) = some db' ∧
      (∃ m, db'.sheet "schema_migrations" = some m) ∧ Upgraded v (v + 1) db db' := by
  obtain ⟨hcolumns, hkey⟩ := h.migrations m hm
  have hv₁ : schemaVersion db₁ = some v := by
    have hv := h.schemaVersion hm
    rw [schemaVersion_eq_some_iff hm] at hv
    rwa [schemaVersion_eq_some_iff hm₁]
  obtain ⟨m', hexec, hcolumns', hkey', hrows', hv'⟩ :=
    record_step (clock (v + 1)) hm₁ hcolumns hkey hv₁ hlt
  refine ⟨db₁.put "schema_migrations" m', hexec, ⟨m', sheet_put_self ..⟩, ⟨?_, ?_, ?_, fun _ d hd => ?_⟩,
    ?_, ?_, ?_⟩
  · rw [recordedVersion, sheet_put_self]
    exact hv'
  · intro m'' hm''
    rw [sheet_put_self] at hm''
    cases hm''
    exact ⟨hcolumns'.trans hcolumns, hkey'.trans hkey⟩
  · intro h0
    cases h0
  · rw [sheet_put_of_ne db₁ m' (name_ne_schemaMigrations d hd)]
    exact hpresent d hd
  · intro t ht
    rw [sheet_put_of_ne db₁ m' (by decide)]
    exact hconversations t ht
  · intro m₀ hm₀
    rw [hm] at hm₀
    cases hm₀
    exact ⟨m', _, sheet_put_self .., hcolumns', hrows'⟩
  · intro name t hconv hmig ht
    rw [sheet_put_of_ne db₁ m' hmig]
    exact hothers name t hconv hmig ht

theorem v1Tables_nodup : (v1Tables.map (·.name)).Nodup := by decide

/-- The first step creates the tables. -/
theorem run_createStep (h : AtVersion 0 db) (hm : db.sheet "schema_migrations" = some m) :
    ∃ db', run exec db ((⟨1, v1Ddl⟩ : MigrationStep).body clock) = some db' ∧
      (∃ m, db'.sheet "schema_migrations" = some m) ∧ Upgraded 0 1 db db' := by
  obtain ⟨habsent, hindex⟩ := h.absent rfl
  obtain ⟨db₁, hrun, hsheets, hsame, hindexes⟩ := run_createTables v1Tables_nodup habsent
  have hmessages : ∃ d ∈ v1Tables, d.name = "messages" ∧ "conversation_id" ∈ d.columns.map (·.name) := by
    decide
  obtain ⟨d, hd, hname, hcolumn⟩ := hmessages
  have hcreateIndex : exec db₁ (.createIndex "idx_messages_conversation" "messages" "conversation_id") =
      some { db₁ with indexes := "idx_messages_conversation" :: db₁.indexes } := by
    simp only [exec, ← hname, hsheets d hd, Option.bind_eq_bind, Option.bind_some]
    rw [if_neg]
    rintro (hmem | hmem)
    · exact hindex (hindexes ▸ hmem)
    · exact hmem hcolumn
  have hm₁ : db₁.sheet "schema_migrations" = some m := by
    rw [hsame "schema_migrations" (by decide), hm]
  have hpresent : ∀ d ∈ v1Tables, ∃ t, db₁.sheet d.name = some t ∧ t.columns = columnsAt 1 d ∧
      t.key = d.key := by
    intro d hd
    refine ⟨.new d, hsheets d hd, ?_, rfl⟩
    simp [columnsAt, columnsAdded, addedIn, Sheet.new]
  have hothers : ∀ name t, name ≠ "conversations" → name ≠ "schema_migrations" →
      db.sheet name = some t → db₁.sheet name = some t := by
    intro name t _ _ ht
    rw [hsame name, ht]
    intro hmem
    obtain ⟨d, hd, rfl⟩ := List.mem_map.mp hmem
    cases (habsent d hd).symm.trans ht
  -- The index is not among the sheets, so the facts about `db₁` are facts about the database with it.
  obtain ⟨db', hexec, hrecord, hup⟩ := record_upgraded clock h hm (by decide)
    (show ({ db₁ with indexes := "idx_messages_conversation" :: db₁.indexes } : Database).sheet
      "schema_migrations" = some m from hm₁) hpresent
    (fun t ht => by cases (habsent conversations (by decide)).symm.trans ht) hothers
  refine ⟨db', ?_, hrecord, hup⟩
  rw [MigrationStep.body, v1Ddl, List.append_assoc, run_append, hrun]
  show run exec db₁ [_, .insert _ [.integer (0 + 1 : ℕ), .integer (clock (0 + 1))]] = _
  rw [run_cons, hcreateIndex, Option.bind_some, run_cons, hexec]
  rfl

/-- The later steps add columns to `conversations`. -/
theorem run_addColumnsStep (h : AtVersion v db) (hv : v ≠ 0) (hlt : v < u32Max)
    (hm : db.sheet "schema_migrations" = some m)
    (hnames : ((columnsAt (v + 1) conversations).map (·.name)).Nodup)
    (hdefault : ∀ c ∈ addedIn (v + 1), ¬(c.notNull = true ∧ c.default = .null)) :
    ∃ db', run exec db ((addColumnsStep (v + 1)).body clock) = some db' ∧
      (∃ m, db'.sheet "schema_migrations" = some m) ∧ Upgraded v (v + 1) db db' := by
  obtain ⟨t, ht, hcolumns, hkey⟩ := h.present hv conversations (by decide)
  change db.sheet "conversations" = some t at ht
  have hcolumnsAt : columnsAt (v + 1) conversations = t.columns ++ addedIn (v + 1) := by
    rw [hcolumns]
    simp [columnsAt, columnsAdded, conversations]
  obtain ⟨db₁, hrun, hsheet, hsame, -⟩ := run_addColumns ht
    (by rwa [hcolumnsAt, List.map_append] at hnames) hdefault
  have hm₁ : db₁.sheet "schema_migrations" = some m := by
    rw [hsame "schema_migrations" (by decide), hm]
  have hpresent : ∀ d ∈ v1Tables,
      ∃ t, db₁.sheet d.name = some t ∧ t.columns = columnsAt (v + 1) d ∧ t.key = d.key := by
    intro d hd
    by_cases hname : d.name = "conversations"
    · obtain rfl := eq_conversations d hd hname
      exact ⟨_, hsheet, hcolumnsAt.symm, hkey⟩
    · obtain ⟨t', ht', hcolumns', hkey'⟩ := h.present hv d hd
      refine ⟨t', ?_, ?_, hkey'⟩
      · rw [hsame d.name (by simpa using hname), ht']
      · rw [hcolumns', columnsAt, columnsAt, if_neg hname, if_neg hname]
  obtain ⟨db', hexec, hrecord, hup⟩ := record_upgraded clock h hm hlt hm₁ hpresent
    (fun t' ht' => by
      cases ht.symm.trans ht'
      exact ⟨addedIn (v + 1), rfl, hsheet⟩)
    fun name t' hconv _ ht' => by rw [hsame name (by simpa using hconv), ht']
  refine ⟨db', ?_, hrecord, hup⟩
  have hddl : (addColumnsStep (v + 1)).body clock = (addedIn (v + 1)).map (.addColumn "conversations") ++
      [.insert "schema_migrations" [.integer (v + 1 : ℕ), .integer (clock (v + 1))]] := rfl
  rw [hddl, run_append, hrun, Option.bind_some, run_cons, hexec]
  rfl

/-- **Step lemma**: from every version below the last, the next step runs. -/
theorem run_step (h : AtVersion v db) (hm : db.sheet "schema_migrations" = some m)
    {s : MigrationStep} (hs : steps[v]? = some s) :
    ∃ db', run exec db (s.body clock) = some db' ∧ (∃ m, db'.sheet "schema_migrations" = some m) ∧
      Upgraded v (v + 1) db db' := by
  obtain ⟨hlt, rfl⟩ := List.getElem?_eq_some_iff.mp hs
  have hcases : v = 0 ∨ v = 1 ∨ v = 2 ∨ v = 3 := by
    simp only [steps, List.length_cons, List.length_nil] at hlt
    omega
  obtain rfl | rfl | rfl | rfl := hcases
  · exact run_createStep clock h hm
  · exact run_addColumnsStep clock h (by decide) (by decide) hm (by decide) (by decide)
  · exact run_addColumnsStep clock h (by decide) (by decide) hm (by decide) (by decide)
  · exact run_addColumnsStep clock h (by decide) (by decide) hm (by decide) (by decide)

/-- **Run lemma**: any number of the steps above a version run, one after the other. -/
theorem run_steps (h : AtVersion v db) (hm : db.sheet "schema_migrations" = some m) (k : ℕ)
    (hk : v + k ≤ steps.length) :
    ∃ db', run exec db (((steps.drop v).take k).map (·.body clock)).flatten = some db' ∧
      (∃ m, db'.sheet "schema_migrations" = some m) ∧ Upgraded v (v + k) db db' := by
  induction k generalizing v db m with
  | zero => exact ⟨db, by simp, ⟨m, hm⟩, h.upgraded_refl⟩
  | succ k ih =>
    have hlt : v < steps.length := by omega
    obtain ⟨db₁, hrun₁, ⟨m₁, hm₁⟩, hup₁⟩ := run_step clock h hm (List.getElem?_eq_getElem hlt)
    obtain ⟨db', hrun, hm', hup⟩ := ih hup₁.atVersion hm₁ (by omega)
    refine ⟨db', ?_, hm', ?_⟩
    · rw [List.drop_eq_getElem_cons hlt, List.take_succ_cons, List.map_cons, List.flatten_cons, run_append,
        hrun₁]
      exact hrun
    · have hsum : v + (k + 1) = v + 1 + k := by omega
      rw [hsum]
      exact hup₁.trans hup

end Steps

/-! ## Opens -/

/-- The steps above a version are the rest of the list. -/
theorem filter_steps {v : ℕ} (hv : v ≤ 4) : steps.filter (fun s => v < s.version) = steps.drop v := by
  have hcases : v = 0 ∨ v = 1 ∨ v = 2 ∨ v = 3 ∨ v = 4 := by omega
  obtain rfl | rfl | rfl | rfl | rfl := hcases <;> rfl

section Opens

variable {db : Database} {v : ℕ} (clock : ℕ → ℤ)

/-- The statements of the steps above a version, up to any of them. -/
theorem run_pending (h : AtVersion v db) (hv : v ≤ 4) {m : Sheet}
    (hm : db.sheet "schema_migrations" = some m) (k : ℕ) :
    ∃ db' l, run exec db (((steps.filter fun s => v < s.version).map (·.body clock)).take k).flatten = some db' ∧
      l ≤ 4 ∧ (4 ≤ v + k → l = 4) ∧ Upgraded v l db db' := by
  have hlen : steps.length = 4 := rfl
  obtain ⟨db', hrun, -, hup⟩ := run_steps clock h hm (min k (4 - v)) (by omega)
  refine ⟨db', v + min k (4 - v), ?_, by omega, by omega, hup⟩
  have htake : (steps.drop v).take k = (steps.drop v).take (min k (4 - v)) := by
    rw [List.take_eq_take_iff, List.length_drop]
    omega
  rw [filter_steps hv, ← List.map_take, htake]
  exact hrun

/-- An open that runs to its end. -/
theorem migrate_upgraded (h : AtVersion v db) (hv : v ≤ 4) :
    ∃ db', migrate clock db = some db' ∧ Upgraded v 4 db db' := by
  obtain ⟨db₁, hcreate, ⟨m, hm⟩, hup₁⟩ := exec_create h
  obtain ⟨db', l, hrun, -, hl, hup⟩ := run_pending clock hup₁.atVersion hv hm 4
  obtain rfl := hl (by omega)
  rw [List.take_of_length_le] at hrun
  · refine ⟨db', ?_, hup₁.trans hup⟩
    simp only [migrate, hcreate, hup₁.atVersion.schemaVersion hm, stepCommands, run_transactions hrun,
      Option.bind_eq_bind, Option.bind_some, Option.pure_def]
  · rw [List.length_map, filter_steps hv, List.length_drop]
    exact Nat.sub_le ..

/-- An open in which the process dies. -/
theorem migrateDying_upgraded (h : AtVersion v db) (hv : v ≤ 4) (death : Death) :
    ∃ db' l, migrateDying db death = some db' ∧ l ≤ 4 ∧ Upgraded v l db db' := by
  obtain ⟨clock, after⟩ := death
  cases after with
  | zero => exact ⟨db, v, rfl, hv, h.upgraded_refl⟩
  | succ n =>
    obtain ⟨db₁, hcreate, ⟨m, hm⟩, hup₁⟩ := exec_create h
    obtain ⟨dbEnd, -, hall, -, -, -⟩ := run_pending clock hup₁.atVersion hv hm
      ((steps.filter fun s => v < s.version).map (·.body clock)).length
    rw [List.take_length] at hall
    -- the durable part is what some number of whole steps leave
    obtain ⟨k, s, hs, hk⟩ := run_take_transactions hall n
    obtain ⟨db', l, hrun, hl, -, hup⟩ := run_pending clock hup₁.atVersion hv hm k
    obtain rfl : db' = s.durable := Option.some.inj (hrun.symm.trans hk)
    refine ⟨s.durable, l, ?_, hl, hup₁.trans hup⟩
    simp only [migrateDying, hcreate, hup₁.atVersion.schemaVersion hm, stepCommands, hs,
      Option.bind_eq_bind, Option.bind_some, Option.pure_def]

/-- Any number of opens in which the process dies. -/
theorem deaths_upgraded (h : AtVersion v db) (hv : v ≤ 4) (deaths : List Death) :
    ∃ db' l, run migrateDying db deaths = some db' ∧ l ≤ 4 ∧ Upgraded v l db db' := by
  induction deaths generalizing v db with
  | nil => exact ⟨db, v, rfl, hv, h.upgraded_refl⟩
  | cons death deaths ih =>
    obtain ⟨db₁, k, hdying, hk, hup₁⟩ := migrateDying_upgraded h hv death
    obtain ⟨db', l, hrun, hl, hup⟩ := ih hup₁.atVersion hk
    exact ⟨db', l, by rw [run_cons, hdying]; exact hrun, hl, hup₁.trans hup⟩

/-- At the last version there is nothing to do. -/
theorem migrate_of_last (h : AtVersion 4 db) : migrate clock db = some db := by
  obtain ⟨m, hm⟩ := h.exists_record (by decide)
  have hcreate : exec db (.createTableIfNotExists schemaMigrations) = some db := by
    simp [exec, schemaMigrations, hm]
  simp only [migrate, hcreate, h.schemaVersion hm, Option.bind_eq_bind, Option.bind_some]
  rfl

end Opens

/-! ## What is kept -/

/-- A database after a migration has all that it had before, and nothing but defaults in the new columns of
the old rows. -/
structure Lossless (v : ℕ) (db db' : Database) : Prop where
  /-- Every row is in its place, with its values. -/
  kept : ∀ name t, db.sheet name = some t → ∃ t', db'.sheet name = some t' ∧
    ∀ (i : ℕ) (row : List Value), t.rows[i]? = some row → ∃ row', t'.rows[i]? = some row' ∧
      ∀ column value, t.value row column = some value → t'.value row' column = some value
  /-- Only the record gets rows. -/
  unfilled : ∀ name t t', name ≠ "schema_migrations" → db.sheet name = some t → db'.sheet name = some t' →
    t'.rows.length = t.rows.length
  /-- The new columns of the old conversations. -/
  added : ∀ t t', db.sheet "conversations" = some t → db'.sheet "conversations" = some t' →
    ∀ row' ∈ t'.rows,
      (v < 2 → t'.value row' "relay_pin" = some .null) ∧
      (v < 3 → t'.value row' "recovery_role" = some .null ∧ t'.value row' "recovery_own_contrib" = some .null ∧
        t'.value row' "recovery_peer_contrib" = some .null ∧ t'.value row' "recovery_root" = some .null ∧
        t'.value row' "recovery_own_gen" = some (.integer 0) ∧
        t'.value row' "recovery_peer_gen" = some (.integer 0)) ∧
      (v < 4 → t'.value row' "label" = some .null)

section Lossless

variable {v : ℕ} {db db' : Database}

/-- The columns of a version are new to the versions below it. -/
theorem new_of_mem_addedIn :
    ∀ k ∈ [2, 3, 4], ∀ v ∈ List.range k, ∀ c ∈ addedIn k, c ∈ columnsAdded 4 ∧ c ∉ columnsAdded v := by
  decide

/-- A column that is new since a version has its default in every row. -/
theorem value_of_new (h : AtVersion v db) {t : Sheet} {cs : List Column}
    (ht : db.sheet "conversations" = some t) (hcs : columnsAdded 4 = columnsAdded v ++ cs) {row' : List Value}
    (hrow' : row' ∈ (t.extend cs).rows) {c : Column} (hc : c ∈ columnsAdded 4) (hnew : c ∉ columnsAdded v) :
    (t.extend cs).value row' c.name = some c.default := by
  have hv : v ≠ 0 := by
    intro h0
    cases ((h.absent h0).1 conversations (by decide)).symm.trans ht
  have hcolumns : t.columns = columnsAt v conversations := by
    obtain ⟨t', ht', hcolumns, -⟩ := h.present hv conversations (by decide)
    cases ht.symm.trans ht'
    exact hcolumns
  have hnodup : (t.names ++ cs.map (·.name)).Nodup := by
    have hall : ((columnsAt 4 conversations).map (·.name)).Nodup := by decide
    have heq : columnsAt 4 conversations = t.columns ++ cs := by
      simp [hcolumns, columnsAt, conversations, hcs]
    rwa [heq, List.map_append] at hall
  have hmem : c ∈ cs := by
    rw [hcs] at hc
    exact (List.mem_append.mp hc).resolve_left hnew
  obtain ⟨row, hrow, rfl⟩ := List.mem_map.mp hrow'
  rw [List.nodup_append] at hnodup
  exact Sheet.value_extend_new hrow (fun hold => hnodup.2.2 _ hold _ (List.mem_map_of_mem hmem) rfl)
    hnodup.2.1 hmem

theorem Upgraded.lossless (hup : Upgraded v 4 db db') (h : AtVersion v db) : Lossless v db db' where
  kept name t ht := by
    by_cases hconv : name = "conversations"
    · subst hconv
      obtain ⟨cs, -, ht'⟩ := hup.conversations t ht
      refine ⟨_, ht', fun i row hrow => ⟨row ++ cs.map (·.default), ?_, fun column value hvalue => ?_⟩⟩
      · simp [Sheet.extend, hrow]
      · exact Sheet.value_extend cs (List.mem_of_getElem? hrow) hvalue
    by_cases hmig : name = "schema_migrations"
    · subst hmig
      obtain ⟨m', more, hm', hcolumns, hrows⟩ := hup.migrations t ht
      refine ⟨m', hm', fun i row hrow => ⟨row, ?_, fun column value hvalue => ?_⟩⟩
      · rw [hrows, List.getElem?_append_left (List.getElem?_eq_some_iff.mp hrow).1, hrow]
      · rw [Sheet.value_congr hcolumns, hvalue]
    · exact ⟨t, hup.others name t hconv hmig ht, fun i row hrow => ⟨row, hrow, fun _ _ hvalue => hvalue⟩⟩
  unfilled name t t' hmig ht ht' := by
    by_cases hconv : name = "conversations"
    · subst hconv
      obtain ⟨cs, -, hext⟩ := hup.conversations t ht
      cases ht'.symm.trans hext
      simp [Sheet.extend]
    · cases ht'.symm.trans (hup.others name t hconv hmig ht)
      rfl
  added t t' ht ht' row' hrow' := by
    obtain ⟨cs, hcs, hext⟩ := hup.conversations t ht
    cases ht'.symm.trans hext
    have hnew (k : ℕ) (hk : k ∈ [2, 3, 4]) (hv : v < k) (c : Column) (hc : c ∈ addedIn k) :
        (t.extend cs).value row' c.name = some c.default := by
      obtain ⟨hmem, hnotMem⟩ := new_of_mem_addedIn k hk v (List.mem_range.mpr hv) c hc
      exact value_of_new h ht hcs hrow' hmem hnotMem
    refine ⟨fun hv => ?_, fun hv => ?_, fun hv => ?_⟩
    · exact hnew 2 (by decide) hv (nullable "relay_pin" .blob) (by decide)
    · have hrecovery := hnew 3 (by decide) hv
      exact ⟨hrecovery (nullable "recovery_role" .integer) (by decide),
        hrecovery (nullable "recovery_own_contrib" .blob) (by decide),
        hrecovery (nullable "recovery_peer_contrib" .blob) (by decide),
        hrecovery (nullable "recovery_root" .blob) (by decide),
        hrecovery (defaulted "recovery_own_gen" .integer (.integer 0)) (by decide),
        hrecovery (defaulted "recovery_peer_gen" .integer (.integer 0)) (by decide)⟩
    · exact hnew 4 (by decide) hv (nullable "label" .text) (by decide)

end Lossless

/-- **Migrations lose nothing and can be resumed.** From a database at any recorded version with any rows,
after any opens in which the process died, an open that runs to its end leaves the last version with
everything that was there, and defaults in what is new; another one changes nothing. -/
theorem migrate_lossless_after_deaths {v : ℕ} (hv : v ≤ 4) {db : Database} (h : AtVersion v db)
    (deaths : List Death) (clock : ℕ → ℤ) :
    ∃ db₁ db', run migrateDying db deaths = some db₁ ∧ migrate clock db₁ = some db' ∧
      schemaVersion db' = some 4 ∧ Lossless v db db' ∧ ∀ clock', migrate clock' db' = some db' := by
  obtain ⟨db₁, l, hdeaths, hl, hup₁⟩ := deaths_upgraded h hv deaths
  obtain ⟨db', hmigrate, hup⟩ := migrate_upgraded clock hup₁.atVersion hl
  have hlast := hup.atVersion
  refine ⟨db₁, db', hdeaths, hmigrate, ?_, (hup₁.trans hup).lossless h,
    fun clock' => migrate_of_last clock' hlast⟩
  obtain ⟨m, hm⟩ := hlast.exists_record (by decide)
  exact hlast.schemaVersion hm

/-- A database of the first version with one conversation. -/
def firstVersion : Database :=
  let tables := v1Tables.foldl (fun (db : Database) d => db.put d.name (.new d))
    ⟨∅, ["idx_messages_conversation"]⟩
  (tables.put "conversations" ⟨conversations.columns, conversations.key, [[.blob [7], .text "peer",
    .text "wss://relay.example", .null, .null, .text "default", .integer 12]], by decide⟩).put
    "schema_migrations" ⟨schemaMigrations.columns, schemaMigrations.key, [[.integer 1, .integer 12]], by decide⟩

theorem atVersion_firstVersion : AtVersion 1 firstVersion where
  recorded := by decide
  migrations m hm := by
    cases hm
    exact ⟨rfl, rfl⟩
  absent h := by cases h
  present _ := by
    simp only [v1Tables, List.forall_mem_cons]
    refine ⟨⟨_, rfl, rfl, rfl⟩, ⟨_, rfl, rfl, rfl⟩, ⟨_, rfl, rfl, rfl⟩, ⟨_, rfl, rfl, rfl⟩, ⟨_, rfl, rfl, rfl⟩,
      ⟨_, rfl, rfl, rfl⟩, ⟨_, rfl, rfl, rfl⟩, ⟨_, rfl, rfl, rfl⟩, fun _ h => ?_⟩
    cases h

/-- A process dies in the second step, another between the third and the fourth. -/
theorem migrate_firstVersion_after_deaths :
    ∃ db₁ db', run migrateDying firstVersion [⟨fun _ => 20, 3⟩, ⟨fun _ => 21, 14⟩] = some db₁ ∧
      migrate (fun _ => 22) db₁ = some db' ∧ schemaVersion db' = some 4 ∧ Lossless 1 firstVersion db' ∧
      ∀ clock', migrate clock' db' = some db' :=
  migrate_lossless_after_deaths (by decide) atVersion_firstVersion _ _

end Titlan.Storage
