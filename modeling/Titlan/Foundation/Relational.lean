import Mathlib.Data.List.Basic
import Titlan.Foundation.Run
import Titlan.Foundation.Table

/-! # Relational stores

Tables of rows, as an SQL database keeps them, and the statements that change them: new tables, new
columns, new rows. A statement that breaks a rule fails and changes nothing. A new column gives every row
that is there its default; the values of the other columns stay. -/

namespace Foundation.Relational

/-- The value of a cell. -/
inductive Value
  | null
  | integer (n : ℤ)
  | real (bits : UInt64)
  | text (s : String)
  | blob (bytes : List UInt8)
deriving DecidableEq, Repr

/-- The declared type of a column. -/
inductive ColumnType
  | integer
  | text
  | blob
deriving DecidableEq, Repr

/-- A column as it is declared. -/
structure Column where
  name : String
  type : ColumnType
  notNull : Bool
  /-- The declared default, or `NULL`. -/
  default : Value
deriving DecidableEq, Repr

/-- A table as it is declared. -/
structure TableDef where
  name : String
  columns : List Column
  /-- The columns of the primary key. -/
  key : List String
deriving DecidableEq, Repr

/-! ## Tables of rows -/

/-- A table with its rows, each with a value for every column. -/
@[ext]
structure Sheet where
  columns : List Column
  key : List String
  rows : List (List Value)
  /-- Every row has a value for every column. -/
  width : ∀ row ∈ rows, row.length = columns.length

namespace Sheet

/-- The names of the columns. -/
def names (t : Sheet) : List String := t.columns.map (·.name)

/-- The value of a row in the column of a name, if there is one. -/
def value (t : Sheet) (row : List Value) (name : String) : Option Value := row[t.names.idxOf name]?

/-- A new table. -/
def new (d : TableDef) : Sheet := ⟨d.columns, d.key, [], by simp⟩

/-- A table with more columns, its rows with their defaults. -/
def extend (t : Sheet) (more : List Column) : Sheet where
  columns := t.columns ++ more
  key := t.key
  rows := t.rows.map (· ++ more.map (·.default))
  width := by
    intro row hrow
    obtain ⟨old, hold, rfl⟩ := List.mem_map.mp hrow
    simp [t.width old hold]

/-- `ALTER TABLE … ADD COLUMN`. -/
def addColumn (t : Sheet) (c : Column) : Option Sheet :=
  if c.name ∈ t.names ∨ c.notNull = true ∧ c.default = .null then none else some (t.extend [c])

/-- What the constraints of a table ask of a new row. -/
def Admits (t : Sheet) (row : List Value) : Prop :=
  row.length = t.columns.length ∧ (∀ e ∈ t.columns.zip row, e.1.notNull = true → e.2 ≠ .null) ∧
    ∀ old ∈ t.rows, t.key.map (t.value old) ≠ t.key.map (t.value row)

instance (t : Sheet) (row : List Value) : Decidable (t.Admits row) :=
  inferInstanceAs (Decidable (_ ∧ _ ∧ _))

/-- `INSERT` of one row. -/
def insert (t : Sheet) (row : List Value) : Option Sheet :=
  if h : t.Admits row then
    some { t with
      rows := t.rows ++ [row]
      width := by
        intro r hr
        obtain hr | hr := List.mem_append.mp hr
        · exact t.width r hr
        · rw [List.mem_singleton.mp hr]
          exact h.1 }
  else
    none

/-- The rows that a condition `WHERE column = v` selects. -/
def Selects (t : Sheet) (column : String) (v : Value) (row : List Value) : Prop := t.value row column = some v

instance (t : Sheet) (column : String) (v : Value) (row : List Value) : Decidable (t.Selects column v row) :=
  inferInstanceAs (Decidable (_ = _))

/-- A row after an `UPDATE`. -/
def updateRow (t : Sheet) (column : String) (v : Value) (whereColumn : String) (w : Value) (row : List Value) :
    List Value :=
  if t.Selects whereColumn w row then row.set (t.names.idxOf column) v else row

variable (t : Sheet)

theorem length_updateRow (column : String) (v : Value) (whereColumn : String) (w : Value)
    (row : List Value) : (t.updateRow column v whereColumn w row).length = row.length := by
  unfold updateRow
  split <;> simp

/-- `UPDATE … SET column = v WHERE whereColumn = w`, for a column outside the key: the table after it, and
how many rows it changed. -/
def update (t : Sheet) (column : String) (v : Value) (whereColumn : String) (w : Value) :
    Option (Sheet × ℕ) := do
  let c ← t.columns.find? fun c => c.name = column
  if whereColumn ∉ t.names ∨ column ∈ t.key ∨ c.notNull = true ∧ v = .null then
    none
  else
    return ({ t with
      rows := t.rows.map (t.updateRow column v whereColumn w)
      width := by
        intro row hrow
        obtain ⟨old, hold, rfl⟩ := List.mem_map.mp hrow
        rw [length_updateRow, t.width old hold] }, t.rows.countP fun row => t.Selects whereColumn w row)

/-- `SELECT column FROM … WHERE whereColumn = w`, of one row. -/
def select (t : Sheet) (column whereColumn : String) (w : Value) : Option (Option Value) :=
  (t.rows.find? fun row => t.Selects whereColumn w row).map fun row => t.value row column

variable {row : List Value} {t : Sheet}

/-- A row that the constraints admit is added at the end. -/
theorem insert_eq_some (h : t.Admits row) :
    ∃ t', t.insert row = some t' ∧ t'.columns = t.columns ∧ t'.key = t.key ∧ t'.rows = t.rows ++ [row] :=
  ⟨_, dif_pos h, rfl, rfl, rfl⟩

/-- Values depend on the columns only. -/
theorem value_congr {t t' : Sheet} (h : t'.columns = t.columns) : t'.value = t.value := by
  funext row name
  rw [value, value, names, names, h]

variable (more : List Column)

@[simp] theorem columns_extend : (t.extend more).columns = t.columns ++ more := rfl

@[simp] theorem names_extend : (t.extend more).names = t.names ++ more.map (·.name) := by
  simp [names]

@[simp] theorem extend_nil : t.extend [] = t := by
  ext1 <;> simp [extend]

theorem extend_extend (more evenMore : List Column) :
    (t.extend more).extend evenMore = t.extend (more ++ evenMore) := by
  ext1 <;> simp [extend]

theorem length_names : t.names.length = t.columns.length := List.length_map _

/-- A column that has a value is a column. -/
theorem mem_names_of_value {name : String} {v : Value}
    (hrow : row ∈ t.rows) (h : t.value row name = some v) : name ∈ t.names := by
  obtain ⟨hlt, -⟩ := List.getElem?_eq_some_iff.mp h
  rw [t.width row hrow, ← length_names] at hlt
  exact List.idxOf_lt_length_iff.mp hlt

/-- New columns leave the values of the old ones. -/
theorem value_extend {name : String} {v : Value}
    (hrow : row ∈ t.rows) (h : t.value row name = some v) :
    (t.extend more).value (row ++ more.map (·.default)) name = some v := by
  have hmem := mem_names_of_value hrow h
  obtain ⟨hlt, -⟩ := List.getElem?_eq_some_iff.mp h
  rw [value, names_extend, List.idxOf_append_of_mem hmem, List.getElem?_append_left hlt]
  exact h

/-- A new column has its default. -/
theorem value_extend_new {more : List Column} {c : Column}
    (hrow : row ∈ t.rows) (hold : c.name ∉ t.names) (hmore : (more.map (·.name)).Nodup) (hc : c ∈ more) :
    (t.extend more).value (row ++ more.map (·.default)) c.name = some c.default := by
  obtain ⟨i, hi, rfl⟩ := List.getElem_of_mem hc
  have hidx : (more.map (·.name)).idxOf more[i].name = i := by
    have hget : (more.map (·.name))[i]? = some more[i].name := by
      simp [hi]
    obtain ⟨hlt, hget⟩ := List.getElem?_eq_some_iff.mp hget
    rw [← hget]
    exact hmore.idxOf_getElem i hlt
  have hlen : t.names.length = row.length := by rw [length_names, t.width row hrow]
  rw [value, names_extend, List.idxOf_append_of_notMem hold, hidx, hlen,
    List.getElem?_append_right (Nat.le_add_right ..), Nat.add_sub_cancel_left]
  simp [hi]

section Update

variable {t : Sheet} {column whereColumn name : String} {v w : Value} {row : List Value}

/-- An update leaves the other columns. -/
theorem value_updateRow_of_ne (hcolumn : column ∈ t.names) (hne : name ≠ column) :
    t.value (t.updateRow column v whereColumn w row) name = t.value row name := by
  unfold updateRow
  split
  · have hidx : t.names.idxOf column ≠ t.names.idxOf name :=
      fun heq => hne ((List.idxOf_inj hcolumn).mp heq).symm
    rw [value, value, List.getElem?_set_ne hidx]
  · rfl

theorem value_updateRow_self (hcolumn : column ∈ t.names) (hrow : row ∈ t.rows)
    (hsel : t.Selects whereColumn w row) :
    t.value (t.updateRow column v whereColumn w row) column = some v := by
  have hlt : t.names.idxOf column < row.length := by
    rw [t.width row hrow, ← length_names]
    exact List.idxOf_lt_length_iff.mpr hcolumn
  rw [updateRow, if_pos hsel, value, List.getElem?_set_self hlt]

/-- What is updated can be selected. -/
theorem select_update {c : Column} (hc : t.columns.find? (fun c => c.name = column) = some c)
    (hok : ¬(whereColumn ∉ t.names ∨ column ∈ t.key ∨ c.notNull = true ∧ v = .null))
    (hne : whereColumn ≠ column) (hrow : ∃ row ∈ t.rows, t.Selects whereColumn w row) :
    ∃ t' changed, t.update column v whereColumn w = some (t', changed) ∧ changed ≠ 0 ∧
      t'.select column whereColumn w = some (some v) := by
  have hcolumn : column ∈ t.names := by
    have hname : c.name = column := by simpa using List.find?_some hc
    exact List.mem_map.mpr ⟨c, List.mem_of_find?_eq_some hc, hname⟩
  obtain ⟨row, hfind⟩ : ∃ row, t.rows.find? (fun row => t.Selects whereColumn w row) = some row := by
    obtain ⟨row, hmem, hsel⟩ := hrow
    exact Option.isSome_iff_exists.mp (List.find?_isSome.mpr ⟨row, hmem, by simpa using hsel⟩)
  have hsel : t.Selects whereColumn w row := by simpa using List.find?_some hfind
  have hself := value_updateRow_self (v := v) hcolumn (List.mem_of_find?_eq_some hfind) hsel
  simp only [update, hc, Option.bind_eq_bind, Option.bind_some, if_neg hok, Option.pure_def]
  refine ⟨_, _, rfl, ?_, ?_⟩
  · rw [← Nat.pos_iff_ne_zero, List.countP_pos_iff]
    simpa using hrow
  · -- the update leaves the column of the condition, so the condition selects the same row
    have hsame (r : List Value) : t.Selects whereColumn w (t.updateRow column v whereColumn w r) ↔
        t.Selects whereColumn w r := by
      rw [Selects, Selects, value_updateRow_of_ne hcolumn hne]
    have hfind' : (t.rows.map (t.updateRow column v whereColumn w)).find?
        (fun row => t.Selects whereColumn w row) = some (t.updateRow column v whereColumn w row) := by
      rw [List.find?_map]
      simp only [Function.comp_def, hsame, hfind, Option.map_some]
    show ((t.rows.map (t.updateRow column v whereColumn w)).find?
      fun row => t.Selects whereColumn w row).map (fun row => t.value row column) = _
    rw [hfind', Option.map_some, hself]

end Update

theorem addColumn_eq_some {c : Column} (hname : c.name ∉ t.names)
    (hdefault : ¬(c.notNull = true ∧ c.default = .null)) : t.addColumn c = some (t.extend [c]) :=
  if_neg (not_or.mpr ⟨hname, hdefault⟩)

end Sheet

/-! ## Databases -/

/-- The tables of a database by their names, and the names of its indexes. -/
structure Database where
  sheets : Table String Sheet
  indexes : List String

/-- The statements that change a database. -/
inductive Statement
  | createTable (d : TableDef)
  | createTableIfNotExists (d : TableDef)
  | createIndex (name table column : String)
  | addColumn (table : String) (c : Column)
  | insert (table : String) (row : List Value)
deriving DecidableEq, Repr

namespace Database

/-- A database with a table put in or replaced. -/
def put (db : Database) (name : String) (t : Sheet) : Database := { db with sheets := db.sheets.insert name t }

/-- The table of a name. -/
def sheet (db : Database) (name : String) : Option Sheet := db.sheets.lookup name

/-- One statement. -/
def exec (db : Database) : Statement → Option Database
  | .createTable d => if (db.sheet d.name).isSome then none else some (db.put d.name (.new d))
  | .createTableIfNotExists d => if (db.sheet d.name).isSome then some db else some (db.put d.name (.new d))
  | .createIndex name table column => do
    let t ← db.sheet table
    if name ∈ db.indexes ∨ column ∉ t.names then none else some { db with indexes := name :: db.indexes }
  | .addColumn table c => do
    let t ← db.sheet table
    return db.put table (← t.addColumn c)
  | .insert table row => do
    let t ← db.sheet table
    return db.put table (← t.insert row)

@[simp] theorem sheet_put_self (db : Database) (name : String) (t : Sheet) :
    (db.put name t).sheet name = some t := AList.lookup_insert _

theorem sheet_put_of_ne (db : Database) {name name' : String} (t : Sheet) (h : name' ≠ name) :
    (db.put name t).sheet name' = db.sheet name' := AList.lookup_insert_ne h

/-- Two databases agree on all tables but some. -/
def SameExcept (names : List String) (db db' : Database) : Prop :=
  ∀ name ∉ names, db'.sheet name = db.sheet name

theorem SameExcept.refl (names : List String) (db : Database) : SameExcept names db db := fun _ _ => rfl

theorem SameExcept.trans {names : List String} {db db' db'' : Database} (h : SameExcept names db db')
    (h' : SameExcept names db' db'') : SameExcept names db db'' :=
  fun name hname => (h' name hname).trans (h name hname)

theorem SameExcept.mono {names names' : List String} {db db' : Database} (h : SameExcept names db db')
    (hsub : names ⊆ names') : SameExcept names' db db' :=
  fun name hname => h name fun hmem => hname (hsub hmem)

theorem sameExcept_put (db : Database) (name : String) (t : Sheet) : SameExcept [name] db (db.put name t) :=
  fun _ hname => sheet_put_of_ne db t (by simpa using hname)

/-- Columns added one by one. -/
theorem run_addColumns {db : Database} {table : String} {t : Sheet} {cs : List Column}
    (ht : db.sheet table = some t) (hnames : (t.names ++ cs.map (·.name)).Nodup)
    (hdefault : ∀ c ∈ cs, ¬(c.notNull = true ∧ c.default = .null)) :
    ∃ db', run exec db (cs.map (.addColumn table)) = some db' ∧ db'.sheet table = some (t.extend cs) ∧
      SameExcept [table] db db' ∧ db'.indexes = db.indexes := by
  induction cs generalizing db t with
  | nil => exact ⟨db, rfl, by rw [Sheet.extend_nil, ht], .refl [table] db, rfl⟩
  | cons c cs ih =>
    have hnew : c.name ∉ t.names := by
      intro hmem
      rw [List.nodup_append] at hnames
      exact hnames.2.2 _ hmem _ List.mem_cons_self rfl
    have hexec : exec db (.addColumn table c) = some (db.put table (t.extend [c])) := by
      simp [exec, ht, Sheet.addColumn_eq_some hnew (hdefault c List.mem_cons_self)]
    obtain ⟨db', hrun, hsheet, hsame, hindexes⟩ := ih (sheet_put_self db table (t.extend [c]))
      (by simpa using hnames) fun c' hc' => hdefault c' (List.mem_cons_of_mem c hc')
    refine ⟨db', ?_, ?_, (sameExcept_put db table (t.extend [c])).trans hsame, hindexes⟩
    · rw [List.map_cons, run_cons, hexec]
      exact hrun
    · rw [hsheet, Sheet.extend_extend]
      rfl

/-- Tables created one by one. -/
theorem run_createTables {db : Database} {ds : List TableDef} (hnodup : (ds.map (·.name)).Nodup)
    (habsent : ∀ d ∈ ds, db.sheet d.name = none) :
    ∃ db', run exec db (ds.map .createTable) = some db' ∧ (∀ d ∈ ds, db'.sheet d.name = some (.new d)) ∧
      SameExcept (ds.map (·.name)) db db' ∧ db'.indexes = db.indexes := by
  induction ds generalizing db with
  | nil => exact ⟨db, rfl, fun _ h => (by cases h), .refl [] db, rfl⟩
  | cons d ds ih =>
    rw [List.map_cons, List.nodup_cons] at hnodup
    have hexec : exec db (.createTable d) = some (db.put d.name (.new d)) := by
      simp [exec, habsent d List.mem_cons_self]
    have hne : ∀ d' ∈ ds, d'.name ≠ d.name := fun d' hd' heq => hnodup.1 (heq ▸ List.mem_map_of_mem hd')
    have habsent' : ∀ d' ∈ ds, (db.put d.name (.new d)).sheet d'.name = none := fun d' hd' => by
      rw [sheet_put_of_ne db _ (hne d' hd'), habsent d' (List.mem_cons_of_mem d hd')]
    obtain ⟨db', hrun, hsheets, hsame, hindexes⟩ := ih hnodup.2 habsent'
    refine ⟨db', ?_, fun d' hd' => ?_, ?_, hindexes⟩
    · rw [List.map_cons, run_cons, hexec]
      exact hrun
    · obtain rfl | hd' := List.mem_cons.mp hd'
      · rw [hsame d'.name hnodup.1, sheet_put_self]
      · exact hsheets d' hd'
    · refine .trans ((sameExcept_put db d.name (.new d)).mono ?_) (hsame.mono ?_)
      · exact List.cons_subset.mpr ⟨List.mem_cons_self, List.nil_subset _⟩
      · exact List.subset_cons_self ..

end Database

end Foundation.Relational
