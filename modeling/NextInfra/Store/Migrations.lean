import NextInfra.Lib.Programs
import NextInfra.Lib.Runs

/-!
# The migrations of the store

A process that opens the store reads the version of the schema, and, where that is behind,
brings it up to date in one transaction. Several may open the same file, each with its
statements next to those of the others, and any of them may fail or be the last thing its
process does. The version is read before the transaction begins, so a process may go on
with one that is not true any more; its first statement then fails, and nothing of it stays.
The schema is always that of one version as a whole, and up to date as soon as `apply` has
returned to anybody (`schema_whole`).
-/

namespace NextInfra

namespace Migrations

/-! ## §1  Schemas -/

inductive Table
  | schemaMigrations
  | connections
  | connectorState
  | syncRuns
  | resources
  | resourceVersions
  | relations
  | relationVersions
  | bindings
  | changes
  | maintenanceRuns
  | projectionMetadata
  | inferenceRuns
  | inferenceOutputs
  | connectionSecrets
deriving DecidableEq

inductive Index
  | resourcesKindLifecycleHealth
  | resourcesLastSeen
  | resourceVersionsResourceObserved
  | relationsSourceLifecycle
  | relationsTargetLifecycle
  | changesObserved
  | syncRunsConnectionStarted
  | bindingsSourceStatus
  | bindingsTargetStatus
  | inferenceRunsRuleStarted
deriving DecidableEq

/-- A column a later migration adds. -/
inductive Column
  | warningsJson
deriving DecidableEq

/-- What the migrations make: `metadata` is the one row of `projection_metadata`, `applied` the
rows of `schema_migrations`, `version` the `user_version`. -/
structure Schema where
  tables : List Table
  indexes : List Index
  columns : List (Table × Column)
  metadata : Bool
  applied : List Nat
  version : Nat
deriving DecidableEq

def Schema.empty : Schema where
  tables := []
  indexes := []
  columns := []
  metadata := false
  applied := []
  version := 0

inductive Statement
  | createTable (table : Table)
  | createIndex (index : Index) (table : Table)
  | addColumn (table : Table) (column : Column)
  | insertMetadata
  | insertMigration (version : Nat)
  | setUserVersion (version : Nat)
deriving DecidableEq

inductive SqlError
  | alreadyExists
  | noSuchTable
  | constraint
  | busy
  | transaction
  | other (code : Nat)
deriving DecidableEq

def Statement.run : Statement → Schema → Except SqlError Schema
  | .createTable table, s =>
      if table ∈ s.tables then .error .alreadyExists
      else .ok { s with tables := s.tables ++ [table] }
  | .createIndex index table, s =>
      if index ∈ s.indexes then .error .alreadyExists
      else if table ∈ s.tables then .ok { s with indexes := s.indexes ++ [index] }
      else .error .noSuchTable
  | .addColumn table column, s =>
      if table ∉ s.tables then .error .noSuchTable
      else if (table, column) ∈ s.columns then .error .alreadyExists
      else .ok { s with columns := s.columns ++ [(table, column)] }
  | .insertMetadata, s =>
      if .projectionMetadata ∉ s.tables then .error .noSuchTable
      else if s.metadata then .error .constraint
      else .ok { s with metadata := true }
  | .insertMigration version, s =>
      if .schemaMigrations ∉ s.tables then .error .noSuchTable
      else if version ∈ s.applied then .error .constraint
      else .ok { s with applied := s.applied ++ [version] }
  | .setUserVersion version, s => .ok { s with version := version }

/-- Several statements, as far as the first that fails. -/
def runAll : List Statement → Schema → Except SqlError Schema
  | [], s => .ok s
  | st :: rest, s => (st.run s).bind (runAll rest)

theorem runAll_append {xs ys : List Statement} {s : Schema} :
    runAll (xs ++ ys) s = (runAll xs s).bind (runAll ys) := by
  induction xs generalizing s with
  | nil => rfl
  | cons st rest ih =>
      show (st.run s).bind (runAll (rest ++ ys)) = ((st.run s).bind (runAll rest)).bind _
      cases st.run s with
      | error e => rfl
      | ok s' => exact ih

/-! ## §2  The migrations -/

def latestSchemaVersion : Nat := 5

def migration1 : List Statement :=
  [.createTable .schemaMigrations, .createTable .connections, .createTable .connectorState,
    .createTable .syncRuns, .createTable .resources, .createTable .resourceVersions,
    .createTable .relations, .createTable .relationVersions, .createTable .bindings,
    .createTable .changes, .createTable .maintenanceRuns,
    .createIndex .resourcesKindLifecycleHealth .resources,
    .createIndex .resourcesLastSeen .resources,
    .createIndex .resourceVersionsResourceObserved .resourceVersions,
    .createIndex .relationsSourceLifecycle .relations,
    .createIndex .relationsTargetLifecycle .relations,
    .createIndex .changesObserved .changes,
    .createIndex .syncRunsConnectionStarted .syncRuns]

def migration2 : List Statement := [.createTable .projectionMetadata, .insertMetadata]

def migration3 : List Statement :=
  [.createIndex .bindingsSourceStatus .bindings, .createIndex .bindingsTargetStatus .bindings,
    .createTable .inferenceRuns, .createTable .inferenceOutputs,
    .createIndex .inferenceRunsRuleStarted .inferenceRuns]

def migration4 : List Statement := [.addColumn .syncRuns .warningsJson]

def migration5 : List Statement := [.createTable .connectionSecrets]

/-- A migration, its record and its version. -/
def recorded (number : Nat) (batch : List Statement) : List Statement :=
  batch ++ [.insertMigration number, .setUserVersion number]

/-- A migration where it is still to be made. -/
def migrate (current number : Nat) (batch : List Statement) : List Statement :=
  if current < number then recorded number batch else []

/-- What is executed for a database at version `current`. -/
def statements (current : Nat) : List Statement :=
  migrate current 1 migration1 ++ migrate current 2 migration2 ++ migrate current 3 migration3 ++
    migrate current 4 migration4 ++ migrate current 5 migration5

/-- The migrations up to a version. -/
def upTo (version : Nat) : List Statement :=
  [(1, migration1), (2, migration2), (3, migration3), (4, migration4), (5, migration5)].flatMap
    fun m => if m.1 ≤ version then recorded m.1 m.2 else []

/-- The schema of a version: what the migrations up to it make of an empty file. -/
def schemaAt (version : Nat) : Schema := (runAll (upTo version) .empty).toOption.getD .empty

/-- A schema of the program: of one of its versions, or of a version to come. -/
def Known (s : Schema) : Prop :=
  (∃ version ≤ latestSchemaVersion, s = schemaAt version) ∨ latestSchemaVersion < s.version

theorem schemaAt_version {version : Nat} (h : version ≤ latestSchemaVersion) :
    (schemaAt version).version = version := by
  have hall : ∀ v ∈ List.range 6, (schemaAt v).version = v := by decide +kernel
  exact hall version (List.mem_range.mpr (Nat.lt_succ_of_le h))

/-- From the version that was read, the statements lead to the latest schema. -/
theorem statements_lead {current : Nat} (h : current < latestSchemaVersion) :
    (runAll (statements current) (schemaAt current)).toOption =
      some (schemaAt latestSchemaVersion) := by
  have hall : ∀ c ∈ List.range 5, (runAll (statements c) (schemaAt c)).toOption =
      some (schemaAt latestSchemaVersion) := by decide +kernel
  exact hall current (List.mem_range.mpr h)

/-- From the latest schema they lead nowhere. -/
theorem statements_fail {current : Nat} (h : current < latestSchemaVersion) :
    (runAll (statements current) (schemaAt latestSchemaVersion)).toOption = none := by
  have hall : ∀ c ∈ List.range 5,
      (runAll (statements c) (schemaAt latestSchemaVersion)).toOption = none := by decide +kernel
  exact hall current (List.mem_range.mpr h)

/-! ## §3  The database -/

inductive Call
  | userVersion
  | beginImmediate
  | execute (statement : Statement)
  | commit
  | rollback
deriving DecidableEq

@[reducible] def Call.Answer : Call → Type
  | .userVersion => Except SqlError Nat
  | .rollback => Unit
  | _ => Except SqlError Unit

/-- What is committed, and the transaction of the one that writes. -/
structure Database where
  committed : Schema
  writer : Option (Nat × Schema)

/-- What is free: whether a call fails for a reason of its own, and then whether a commit is
made all the same, and whether the transaction is gone. -/
structure Choice where
  fault : Option Nat := none
  lands : Bool := false
  ends : Bool := false

namespace Database

variable (db : Database) (thread : Nat)

/-- The transaction of a process, where it has one. -/
def working : Option Schema :=
  match db.writer with
  | some (i, w) => if i = thread then some w else none
  | none => none

/-- Without the transaction of a process. -/
def closed : Database :=
  match db.working thread with
  | some _ => { db with writer := none }
  | none => db

def userVersion : Except SqlError Nat × Database :=
  match db.working thread with
  | some w => (.ok w.version, db)
  | none => (.ok db.committed.version, db)

def beginImmediate : Except SqlError Unit × Database :=
  match db.writer with
  | none => (.ok (), { db with writer := some (thread, db.committed) })
  | some (i, _) => (.error (if i = thread then .transaction else .busy), db)

/-- Outside a transaction of its own, a statement is one by itself. -/
def execute (statement : Statement) : Except SqlError Unit × Database :=
  match db.working thread with
  | some w =>
      match statement.run w with
      | .ok w' => (.ok (), { db with writer := some (thread, w') })
      | .error e => (.error e, db)
  | none =>
      if db.writer.isSome then (.error .busy, db)
      else
        match statement.run db.committed with
        | .ok s => (.ok (), { db with committed := s })
        | .error e => (.error e, db)

def commit : Except SqlError Unit × Database :=
  match db.working thread with
  | some w => (.ok (), { committed := w, writer := none })
  | none => (.error .transaction, db)

def answer : (c : Call) → c.Answer × Database
  | .userVersion => db.userVersion thread
  | .beginImmediate => db.beginImmediate thread
  | .execute statement => db.execute thread statement
  | .commit => db.commit thread
  | .rollback => ((), db.closed thread)

/-- A call that fails for a reason of its own. -/
def failed (code : Nat) (choice : Choice) : (c : Call) → c.Answer × Database
  | .userVersion => (.error (.other code), db)
  | .beginImmediate => (.error (.other code), db)
  | .execute _ => (.error (.other code), if choice.ends then db.closed thread else db)
  | .commit =>
      (.error (.other code),
        if choice.lands then (db.commit thread).2
        else if choice.ends then db.closed thread
        else db)
  | .rollback => ((), db)

end Database

def kernel : Kernel Call Call.Answer Database Choice where
  possible := fun _ _ => True
  perform := fun db thread c choice =>
    match choice.fault with
    | some code => db.failed thread code choice c
    | none => db.answer thread c

theorem perform_failed {db : Database} {thread : Nat} {c : Call} {choice : Choice} {code : Nat}
    (h : choice.fault = some code) :
    kernel.perform db thread c choice = db.failed thread code choice c := by
  simp only [kernel, h]

theorem perform_answers {db : Database} {thread : Nat} {c : Call} {choice : Choice}
    (h : choice.fault = none) : kernel.perform db thread c choice = db.answer thread c := by
  simp only [kernel, h]

/-! ## §4  `apply` -/

abbrev Sys := Program Call Call.Answer

def sys (c : Call) : Sys c.Answer := .ask c

inductive StoreError
  | sqlite (error : SqlError)
  | unsupportedSchema (found supported : Nat)
deriving DecidableEq

/-- `map_err(StoreError::Sqlite)?` -/
def sqlite {α : Type} (x : Sys (Except SqlError α)) : ExceptT StoreError Sys α :=
  ExceptT.mk do return (← x).mapError .sqlite

def executeAll : List Statement → ExceptT StoreError Sys Unit
  | [] => pure ()
  | statement :: rest => do
      sqlite (sys (.execute statement))
      executeAll rest

/-- The transaction is rolled back where it is dropped before it is committed. -/
def rollingBack (body : ExceptT StoreError Sys Unit) : ExceptT StoreError Sys Unit :=
  ExceptT.mk do
    match ← body.run with
    | .ok () => return .ok ()
    | .error e =>
        sys .rollback
        return .error e

def applyFrom (current : Nat) : ExceptT StoreError Sys Unit := do
  executeAll (migrate current 1 migration1)
  executeAll (migrate current 2 migration2)
  executeAll (migrate current 3 migration3)
  executeAll (migrate current 4 migration4)
  executeAll (migrate current 5 migration5)
  sqlite (sys .commit)

def apply : ExceptT StoreError Sys Unit := do
  let current ← sqlite (sys .userVersion)
  if latestSchemaVersion < current then
    throw (.unsupportedSchema current latestSchemaVersion)
  else if current = latestSchemaVersion then return
  else do
    sqlite (sys .beginImmediate)
    rollingBack (applyFrom current)

/-! ## §5  What a process knows -/

/-- Where a process is in `apply`, with the version it has read and the statements its
transaction has executed. -/
inductive Progress
  | outside
  | knows (current : Nat)
  | inside (current : Nat) (executed : List Statement)
  | leaving
  | migrated

namespace Progress

def begins (g : Progress) : Progress :=
  match g with
  | .knows current => .inside current []
  | g => g

def executes (g : Progress) (statement : Statement) : Progress :=
  match g with
  | .inside current executed => .inside current (executed ++ [statement])
  | g => g

def after (g : Progress) : (c : Call) → c.Answer → Progress
  | .userVersion, .ok version => .knows version
  | .beginImmediate, .ok () => g.begins
  | .execute statement, .ok () => g.executes statement
  | .execute _, .error _ => .leaving
  | .commit, .ok () => .migrated
  | .commit, .error _ => .leaving
  | _, _ => g

def Allowed (g : Progress) : Call → Prop
  | .userVersion => g = .outside
  | .beginImmediate => ∃ current < latestSchemaVersion, g = .knows current
  | .execute _ => ∃ current executed, g = .inside current executed
  | .commit => ∃ current < latestSchemaVersion, g = .inside current (statements current)
  | .rollback => g = .leaving

end Progress

def discipline : Discipline Call Call.Answer Progress where
  allowed := Progress.Allowed
  possible := fun _ _ _ => True
  after := Progress.after

/-- The schema is the latest for one who has got through. -/
def Finishes (g : Progress) (r : Except StoreError Unit) : Prop :=
  match r with
  | .ok () => g = .migrated ∨ g = .knows latestSchemaVersion
  | .error _ => True

section

variable {g : Progress} {α β : Type} {current : Nat} {executed : List Statement}

/-- Everything has been executed, or the process leaves. -/
def Executes (current : Nat) (executed : List Statement) (g : Progress)
    (r : Except StoreError Unit) : Prop :=
  match r with
  | .ok () => g = .inside current executed
  | .error _ => g = .leaving

theorem executeAll_obeys {rest : List Statement} :
    Obeys discipline (.inside current executed) (Executes current (executed ++ rest))
      (executeAll rest) := by
  induction rest generalizing executed with
  | nil =>
      rw [List.append_nil]
      exact .done rfl
  | cons statement rest ih =>
      refine .call ⟨current, executed, rfl⟩ fun r _ => ?_
      cases r with
      | error e => exact .done rfl
      | ok u =>
          rw [List.append_cons]
          exact ih

theorem executeAll_try {xs : List Statement} {f : Unit → ExceptT StoreError Sys Unit}
    {Q : Progress → Except StoreError Unit → Prop}
    (hf : Obeys discipline (.inside current (executed ++ xs)) Q (f ()))
    (herror : ∀ e, Q .leaving (.error e)) :
    Obeys discipline (.inside current executed) Q
      (executeAll xs >>= f : ExceptT StoreError Sys Unit) := by
  refine .try_bind executeAll_obeys (fun g u h => ?_) fun g e h => ?_
  · obtain rfl : g = .inside current (executed ++ xs) := h
    exact hf
  · obtain rfl : g = .leaving := h
    exact herror e

/-- Committed, or on the way out. -/
def Commits (g : Progress) (r : Except StoreError Unit) : Prop :=
  match r with
  | .ok () => g = .migrated
  | .error _ => g = .leaving

theorem applyFrom_obeys (h : current < latestSchemaVersion) :
    Obeys discipline (.inside current []) Commits (applyFrom current) := by
  unfold applyFrom
  refine executeAll_try (executeAll_try (executeAll_try (executeAll_try (executeAll_try ?_
    fun _ => rfl) fun _ => rfl) fun _ => rfl) fun _ => rfl) fun _ => rfl
  refine .call ⟨current, h, rfl⟩ fun r _ => ?_
  cases r with
  | ok u => exact .done rfl
  | error e => exact .done rfl

theorem apply_obeys : Obeys discipline .outside Finishes apply := by
  unfold apply
  refine .call rfl fun r _ => ?_
  cases r with
  | error e => exact .done trivial
  | ok version =>
      show Obeys discipline (.knows version) Finishes (if _ then _ else _)
      split
      · exact .done trivial
      split
      · rename_i heq
        subst heq
        exact .done (Or.inr rfl)
      · rename_i hnewer hbehind
        have hlt : version < latestSchemaVersion :=
          Nat.lt_of_le_of_ne (Nat.le_of_not_lt hnewer) hbehind
        refine .call ⟨version, hlt, rfl⟩ fun r _ => ?_
        cases r with
        | error e => exact .done trivial
        | ok u =>
            show Obeys discipline (.inside version []) Finishes (rollingBack (applyFrom version))
            refine .bind (applyFrom_obeys hlt) fun g r hr => ?_
            cases r with
            | ok u => exact .done (Or.inl hr)
            | error e =>
                obtain rfl : g = .leaving := hr
                exact .call rfl fun _ _ => .done trivial

/-! ## §6  What is kept -/

variable {start : Schema} {db db' : Database} {held : List Progress} {i j : Nat}

/-- The version was read from the schema at the start, or from the latest. -/
def Seen (start committed : Schema) (current : Nat) : Prop :=
  current = start.version ∨
    (current = latestSchemaVersion ∧ committed = schemaAt latestSchemaVersion)

/-- What a process knows is so. -/
def Fits (start : Schema) (db : Database) (i : Nat) : Progress → Prop
  | .outside => ∀ w, db.writer ≠ some (i, w)
  | .knows current => Seen start db.committed current
  | .inside current executed => Seen start db.committed current ∧
      ∃ w, db.writer = some (i, w) ∧ runAll executed db.committed = .ok w
  | .leaving => True
  | .migrated => db.committed = schemaAt latestSchemaVersion

/-- The schema is the one at the start, or the latest, which comes after it. -/
def Reached (start committed : Schema) : Prop :=
  committed = start ∨
    (start.version < latestSchemaVersion ∧ committed = schemaAt latestSchemaVersion)

structure Held (start : Schema) (db : Database) (held : List Progress) : Prop where
  reached : Reached start db.committed
  begun : ∀ i w, db.writer = some (i, w) → i < held.length
  fits : ∀ (i : Nat) (g : Progress), held[i]? = some g → Fits start db i g

/-- A process has no transaction, before and after. -/
def Apart (db db' : Database) (j : Nat) : Prop :=
  (∀ w, db.writer ≠ some (j, w)) ∧ ∀ w, db'.writer ≠ some (j, w)

/-- A process that has not moved: the schema is as before or the latest, and the transaction
as before or another's. -/
theorem Fits.beside (h : Fits start db j g)
    (hcommitted : db'.committed = schemaAt latestSchemaVersion ∨ db'.committed = db.committed)
    (hwriter : Apart db db' j ∨ db' = db) : Fits start db' j g := by
  have hseen : ∀ {c : Nat}, Seen start db.committed c → Seen start db'.committed c := by
    rintro c (hc | ⟨hc, hlatest⟩)
    · exact Or.inl hc
    · rcases hcommitted with heq | heq
      · exact Or.inr ⟨hc, heq⟩
      · exact Or.inr ⟨hc, heq.trans hlatest⟩
  cases g with
  | outside =>
      rcases hwriter with happart | rfl
      · exact happart.2
      · exact h
  | knows c => exact hseen h
  | inside c executed =>
      obtain ⟨hc, w, hw, hrun⟩ := h
      rcases hwriter with happart | rfl
      · exact absurd hw (happart.1 w)
      · exact ⟨hc, w, hw, hrun⟩
  | leaving => trivial
  | migrated =>
      rcases hcommitted with heq | heq
      · exact heq
      · exact heq.trans h

/-- One process moves on. -/
theorem Held.moves (h : Held start db held) {g' : Progress} (hreached : Reached start db'.committed)
    (hcommitted : db'.committed = schemaAt latestSchemaVersion ∨ db'.committed = db.committed)
    (hwriter : ∀ j ≠ i, Apart db db' j ∨ db' = db)
    (hbegun : ∀ j w, db'.writer = some (j, w) → j < held.length)
    (hfits : Fits start db' i g') : Held start db' (held.set i g') where
  reached := hreached
  begun := by
    intro j w hw
    rw [List.length_set]
    exact hbegun j w hw
  fits := by
    intro j a ha
    rcases set_cases ha with ⟨rfl, rfl⟩ | ⟨hne, ha⟩
    · exact hfits
    · exact (h.fits j a ha).beside hcommitted (hwriter j hne)

/-- One process moves on and leaves the database as it was. -/
theorem Held.still (h : Held start db held) {g' : Progress} (hfits : Fits start db i g') :
    Held start db (held.set i g') :=
  h.moves h.reached (Or.inr rfl) (fun _ _ => Or.inr rfl) h.begun hfits

theorem working_eq_some {w : Schema} (h : db.working i = some w) : db.writer = some (i, w) := by
  unfold Database.working at h
  split at h
  · rename_i k w' hwriter
    split at h
    · rename_i hki
      cases h
      rw [hwriter, hki]
    · cases h
  · cases h

theorem working_of_writer {w : Schema} (h : db.writer = some (i, w)) : db.working i = some w := by
  unfold Database.working
  rw [h]
  exact if_pos rfl

/-- The transaction of a process is not that of another. -/
theorem apart_of_writer {w : Schema} (h : db.writer = some (i, w))
    (h' : ∀ j w', db'.writer = some (j, w') → j = i) : ∀ j ≠ i, Apart db db' j := by
  intro j hne
  refine ⟨fun w' hw' => hne ?_, fun w' hw' => hne (h' j w' hw')⟩
  cases h.symm.trans hw'
  rfl

/-- A process is out of its transaction, whether it is ended here or not. -/
theorem Held.closes (h : Held start db held) {g' : Progress}
    (hfits : Fits start (db.closed i) i g') : Held start (db.closed i) (held.set i g') := by
  cases hworking : db.working i with
  | none =>
      have hsame : db.closed i = db := by
        unfold Database.closed
        rw [hworking]
      rw [hsame] at hfits ⊢
      exact h.still hfits
  | some w =>
      have hclosed : db.closed i = { db with writer := none } := by
        unfold Database.closed
        rw [hworking]
      rw [hclosed] at hfits ⊢
      have hapart : ∀ j ≠ i, Apart db { db with writer := none } j :=
        apart_of_writer (working_eq_some hworking) fun _ _ hw' => nomatch hw'
      exact h.moves h.reached (Or.inr rfl) (fun j hne => Or.inl (hapart j hne))
        (fun _ _ hw => nomatch hw) hfits

theorem Held.version_seen (h : Held start db held) :
    Seen start db.committed db.committed.version := by
  rcases h.reached with heq | ⟨_, heq⟩
  · exact Or.inl (congrArg Schema.version heq)
  · refine Or.inr ⟨?_, heq⟩
    rw [heq]
    exact schemaAt_version (Nat.le_refl _)

/-- All the statements have gone through: they began at the version that was read, and lead to
the latest schema. -/
theorem committed_latest (hknown : Known start) (hreached : Reached start db.committed)
    {current : Nat} (hlt : current < latestSchemaVersion) (hseen : Seen start db.committed current)
    {w : Schema} (hrun : runAll (statements current) db.committed = .ok w) :
    start.version < latestSchemaVersion ∧ w = schemaAt latestSchemaVersion := by
  have hversion : current = start.version := by
    rcases hseen with heq | ⟨heq, _⟩
    · exact heq
    · exact absurd hlt (heq ▸ Nat.lt_irrefl _)
  rcases hreached with hbase | ⟨_, hbase⟩
  · rcases hknown with ⟨version, hle, rfl⟩ | hnewer
    · rw [schemaAt_version hle] at hversion
      subst hversion
      have hlead := statements_lead hlt
      rw [← hbase, hrun] at hlead
      exact ⟨(schemaAt_version hle).symm ▸ hlt, Option.some.inj hlead⟩
    · exact absurd (hversion ▸ hlt) (Nat.lt_asymm hnewer)
  -- somebody else has migrated since the version was read, so a table is there already
  · have hfail := statements_fail hlt
    rw [← hbase, hrun] at hfail
    cases hfail

/-- A transaction that has executed everything is committed. -/
theorem Held.commits (h : Held start db held) (hknown : Known start) {current : Nat}
    (hi : held[i]? = some (.inside current (statements current)))
    (hlt : current < latestSchemaVersion) {g' : Progress}
    (hfits : (db.commit i).2.committed = schemaAt latestSchemaVersion →
      Fits start (db.commit i).2 i g') :
    (db.commit i).1 = .ok () ∧ Held start (db.commit i).2 (held.set i g') := by
  obtain ⟨hseen, w, hw, hrun⟩ := h.fits i _ hi
  obtain ⟨hbehind, rfl⟩ := committed_latest hknown h.reached hlt hseen hrun
  have hcommit : db.commit i = (.ok (), ⟨schemaAt latestSchemaVersion, none⟩) := by
    unfold Database.commit
    rw [working_of_writer hw]
  rw [hcommit] at hfits ⊢
  have hapart : ∀ j ≠ i, Apart db ⟨schemaAt latestSchemaVersion, none⟩ j :=
    apart_of_writer hw fun _ _ hw' => nomatch hw'
  exact ⟨rfl, h.moves (Or.inr ⟨hbehind, rfl⟩) (Or.inl rfl) (fun j hne => Or.inl (hapart j hne))
    (fun _ _ hw' => nomatch hw') (hfits rfl)⟩

theorem Held.fails (h : Held start db held) (hknown : Known start) (hi : held[i]? = some g)
    {c : Call} (hallowed : g.Allowed c) (code : Nat) (choice : Choice) :
    Held start (db.failed i code choice c).2
      (held.set i (g.after c (db.failed i code choice c).1)) := by
  cases c with
  | userVersion => exact h.still (h.fits i g hi)
  | beginImmediate => exact h.still (h.fits i g hi)
  | execute statement =>
      show Held start (if choice.ends then db.closed i else db) (held.set i .leaving)
      split
      · exact h.closes trivial
      · exact h.still trivial
  | commit =>
      -- a commit that is made all the same leaves the latest schema, one that is not leaves nothing
      obtain ⟨current, hlt, rfl⟩ := hallowed
      show Held start (if choice.lands then (db.commit i).2
        else if choice.ends then db.closed i else db) (held.set i .leaving)
      have hlands : _ ∧ Held start (db.commit i).2 (held.set i .leaving) :=
        h.commits hknown hi hlt fun _ => trivial
      split
      · exact hlands.2
      split
      · exact h.closes trivial
      · exact h.still trivial
  | rollback =>
      obtain rfl : g = .leaving := hallowed
      exact h.still trivial

theorem Held.answers (h : Held start db held) (hknown : Known start) (hi : held[i]? = some g)
    {c : Call} (hallowed : g.Allowed c) :
    Held start (db.answer i c).2 (held.set i (g.after c (db.answer i c).1)) := by
  have hheld : i < held.length := (List.getElem?_eq_some_iff.mp hi).1
  cases c with
  | userVersion =>
      obtain rfl : g = .outside := hallowed
      have hnone : db.working i = none := by
        cases hworking : db.working i with
        | none => rfl
        | some w => exact absurd (working_eq_some hworking) (h.fits i _ hi w)
      have hread : db.userVersion i = (.ok db.committed.version, db) := by
        unfold Database.userVersion
        rw [hnone]
      show Held start (db.userVersion i).2
        (held.set i (Progress.after .outside .userVersion (db.userVersion i).1))
      rw [hread]
      exact h.still h.version_seen
  | beginImmediate =>
      obtain ⟨current, _, rfl⟩ := hallowed
      show Held start (db.beginImmediate i).2
        (held.set i (Progress.after _ .beginImmediate (db.beginImmediate i).1))
      unfold Database.beginImmediate
      cases hwriter : db.writer with
      | some p => exact h.still (h.fits i _ hi)
      | none =>
          refine h.moves h.reached (Or.inr rfl) (fun j hne => Or.inl ⟨?_, ?_⟩) ?_
            ⟨h.fits i _ hi, db.committed, rfl, rfl⟩
          · rw [hwriter]
            exact fun _ hw => nomatch hw
          · intro w hw
            cases hw
            exact hne rfl
          · intro j w hw
            cases hw
            exact hheld
  | execute statement =>
      obtain ⟨current, executed, rfl⟩ := hallowed
      obtain ⟨hseen, w, hw, hrun⟩ := h.fits i _ hi
      show Held start (db.execute i statement).2
        (held.set i (Progress.after _ (.execute statement) (db.execute i statement).1))
      unfold Database.execute
      rw [working_of_writer hw]
      dsimp only
      cases hstep : statement.run w with
      | error e => exact h.still trivial
      | ok w' =>
          have hmore : runAll (executed ++ [statement]) db.committed = .ok w' := by
            rw [runAll_append, hrun]
            show (statement.run w).bind _ = _
            rw [hstep]
            rfl
          have hapart : ∀ j ≠ i, Apart db { db with writer := some (i, w') } j := by
            refine apart_of_writer hw fun j w'' hw'' => ?_
            cases hw''
            rfl
          refine h.moves h.reached (Or.inr rfl) (fun j hne => Or.inl (hapart j hne)) ?_
            ⟨hseen, w', rfl, hmore⟩
          intro j w'' hw''
          cases hw''
          exact hheld
  | commit =>
      obtain ⟨current, hlt, rfl⟩ := hallowed
      have hlands : (db.commit i).1 = .ok () ∧ Held start (db.commit i).2 (held.set i .migrated) :=
        h.commits hknown hi hlt fun hlatest => hlatest
      show Held start (db.commit i).2 (held.set i (Progress.after _ .commit (db.commit i).1))
      rw [hlands.1]
      exact hlands.2
  | rollback =>
      obtain rfl : g = .leaving := hallowed
      exact h.closes trivial

theorem discipline_kept (hknown : Known start) :
    discipline.Kept kernel (Held start) := by
  intro db held i g c choice h hi hallowed _
  refine ⟨trivial, ?_⟩
  cases hfault : choice.fault with
  | some code =>
      rw [perform_failed hfault]
      exact h.fails hknown hi hallowed code choice
  | none =>
      rw [perform_answers hfault]
      exact h.answers hknown hi hallowed

end

/-! ## §7  Processes side by side -/

/-- A process in `apply`, one to which it has returned, and one that has left. -/
inductive Thread
  | applying (p : Sys (Except StoreError Unit))
  | applied
  | gone

def Thread.isApplied : Thread → Bool
  | .applied => true
  | _ => false

structure World where
  db : Database
  threads : List Thread

inductive Step
  | starts
  | calls (thread : Nat) (choice : Choice)
  | returns (thread : Nat)
  | dies (thread : Nat)

namespace World

/-- A file with a schema, and nobody there. -/
def on (schema : Schema) : World := ⟨⟨schema, none⟩, []⟩

def calls (w : World) (thread : Nat) (choice : Choice) : World :=
  match w.threads[thread]? with
  | some (.applying (.call c next)) =>
      { db := (kernel.perform w.db thread c choice).2
        threads := w.threads.set thread
          (.applying (next (kernel.perform w.db thread c choice).1)) }
  | _ => w

/-- The connection of a process is closed, and its transaction with it. -/
def leaves (w : World) (thread : Nat) : World :=
  { db := w.db.closed thread, threads := w.threads.set thread .gone }

def returns (w : World) (thread : Nat) : World :=
  match w.threads[thread]? with
  | some (.applying (.done (.ok ()))) => { w with threads := w.threads.set thread .applied }
  | some (.applying (.done (.error _))) => w.leaves thread
  | _ => w

def step (w : World) : Step → World
  | .starts => { w with threads := w.threads ++ [.applying apply] }
  | .calls thread choice => w.calls thread choice
  | .returns thread => w.returns thread
  | .dies thread => w.leaves thread

def machine : Machine World Step where
  enabled := fun _ _ => True
  step := step

instance (w : World) (call : Step) : Decidable (machine.enabled w call) :=
  inferInstanceAs (Decidable True)

end World

def Thread.Follows (g : Progress) : Thread → Prop
  | .applying p => Obeys discipline g Finishes p
  | .applied => g = .migrated ∨ g = .knows latestSchemaVersion
  | .gone => g = .leaving

/-- What everybody knows is so, and everybody does what it may. -/
structure Orderly (start : Schema) (w : World) (held : List Progress) : Prop where
  kept : Held start w.db held
  length : held.length = w.threads.length
  follows : ∀ (i : Nat) (t : Thread) (g : Progress), w.threads[i]? = some t → held[i]? = some g →
    t.Follows g

section

variable {start : Schema} {w : World} {held : List Progress} {i : Nat} {t : Thread}

theorem Orderly.each (h : Orderly start w held) :
    EachHolds (fun t g => t.Follows g) w.threads held :=
  ⟨h.length, h.follows⟩

theorem Orderly.progress (h : Orderly start w held) (ht : w.threads[i]? = some t) :
    ∃ g, held[i]? = some g ∧ t.Follows g :=
  h.each.holds ht

theorem Orderly.moves (h : Orderly start w held) {db : Database} {g : Progress}
    (hheld : Held start db (held.set i g)) (hfollows : t.Follows g) :
    Orderly start { db := db, threads := w.threads.set i t } (held.set i g) where
  kept := hheld
  length := (h.each.set i hfollows).length
  follows := (h.each.set i hfollows).follows

theorem Orderly.leaves (h : Orderly start w held) :
    Orderly start (w.leaves i) (held.set i .leaving) :=
  h.moves (h.kept.closes trivial) rfl

/-- A new process has no transaction yet. -/
theorem Held.joins {db : Database} (h : Held start db held) :
    Held start db (held ++ [.outside]) where
  reached := h.reached
  begun := by
    intro j w hw
    rw [List.length_append]
    exact Nat.lt_of_lt_of_le (h.begun j w hw) (Nat.le_add_right _ _)
  fits := by
    intro j a ha
    rw [List.getElem?_append] at ha
    split at ha
    · exact h.fits j a ha
    · rename_i hnew
      obtain rfl := List.mem_singleton.mp (List.mem_of_getElem? ha)
      exact fun w hw => hnew (h.begun j w hw)

theorem Orderly.joins (h : Orderly start w held) (ht : t.Follows .outside) :
    Orderly start { w with threads := w.threads ++ [t] } (held ++ [.outside]) where
  kept := h.kept.joins
  length := (h.each.append ht).length
  follows := (h.each.append ht).follows

theorem orderly_step (hknown : Known start) (h : Orderly start w held) (call : Step) :
    ∃ held', Orderly start (w.step call) held' := by
  cases call with
  | starts => exact ⟨_, h.joins apply_obeys⟩
  | calls i choice =>
      show ∃ held', Orderly start (w.calls i choice) held'
      unfold World.calls
      split
      · rename_i c next ht
        obtain ⟨g, hi, hfollows⟩ := h.progress ht
        obtain ⟨hheld, hnext⟩ := Obeys.step (discipline_kept hknown) h.kept hi hfollows trivial
        exact ⟨_, h.moves hheld hnext⟩
      · exact ⟨held, h⟩
  | returns i =>
      show ∃ held', Orderly start (w.returns i) held'
      unfold World.returns
      split
      · rename_i ht
        obtain ⟨g, hi, hfollows⟩ := h.progress ht
        exact ⟨_, h.moves (h.kept.still (h.kept.fits i g hi)) hfollows⟩
      · exact ⟨_, h.leaves⟩
      · exact ⟨held, h⟩
  | dies i => exact ⟨_, h.leaves⟩

theorem orderly_on : Orderly start (.on start) [] where
  kept :=
    { reached := Or.inl rfl
      begun := fun _ _ hw => nomatch hw
      fits := fun _ _ hi => nomatch hi }
  length := rfl
  follows := fun _ _ _ hi => nomatch hi

theorem orderly_run (hknown : Known start) {calls : List Step}
    (hrun : World.machine.Run (.on start) calls w) : ∃ held, Orderly start w held := by
  have hpreserves : World.machine.Preserves fun w => ∃ held, Orderly start w held := by
    rintro w call - ⟨held, h⟩
    exact orderly_step hknown h call
  have horderly := hrun.invariant hpreserves ⟨[], orderly_on⟩
  exact horderly

/-- From a schema of any version, in any order of the calls of any number of processes in `apply`,
each of which may fail or be the last: the schema is the one at the start, or, where that is an
older one, the latest as a whole; and it is the latest where `apply` has returned to anybody. -/
theorem schema_whole (hknown : Known start) {calls : List Step}
    (hrun : World.machine.Run (.on start) calls w) :
    (w.db.committed = start ∨ (start.version < latestSchemaVersion ∧
      w.db.committed = schemaAt latestSchemaVersion)) ∧
    ∀ i : Nat, w.threads[i]? = some .applied → w.db.committed = schemaAt latestSchemaVersion := by
  obtain ⟨held, h⟩ := orderly_run hknown hrun
  refine ⟨h.kept.reached, fun i ht => ?_⟩
  obtain ⟨g, hi, hfollows⟩ := h.progress ht
  rcases hfollows with rfl | rfl
  · exact h.kept.fits i _ hi
  -- nothing to do: the version read was that of the latest schema
  · rcases h.kept.fits i _ hi with hversion | ⟨_, hlatest⟩
    · rcases h.kept.reached with hstart | ⟨hbehind, _⟩
      · rcases hknown with ⟨version, hle, rfl⟩ | hnewer
        · rw [schemaAt_version hle] at hversion
          rw [hstart, hversion]
        · exact absurd hnewer (hversion ▸ Nat.lt_irrefl _)
      · exact absurd hbehind (hversion ▸ Nat.lt_irrefl _)
    · exact hlatest

theorem applied_of_map {ts : List Thread} {rest : List Bool}
    (h : ts.map Thread.isApplied = true :: rest) : ts[0]? = some .applied := by
  cases ts with
  | nil => cases h
  | cons t ts =>
      cases t with
      | applied => rfl
      | applying p => cases h
      | gone => cases h

end

namespace Fixture

/-- The next calls of a process, none of which fails for a reason of its own. -/
def callsOf (thread n : Nat) : List Step := List.replicate n (.calls thread {})

/-- Two processes read the version of an empty file, and then one goes on after the other. -/
def race : List Step :=
  [.starts, .starts] ++ callsOf 0 1 ++ callsOf 1 1 ++ callsOf 0 39 ++ callsOf 1 3 ++
    [.returns 0, .returns 1]

end Fixture

/-- The second fails at its first statement, and the first gets through. -/
theorem schema_whole_race :
    ((World.machine.replay (.on (schemaAt 0)) Fixture.race).threads.map Thread.isApplied =
        [true, false]) ∧
      (World.machine.replay (.on (schemaAt 0)) Fixture.race).db.committed =
        schemaAt latestSchemaVersion := by
  have hknown : Known (schemaAt 0) := Or.inl ⟨0, Nat.zero_le _, rfl⟩
  have hends : (World.machine.replay (.on (schemaAt 0)) Fixture.race).threads.map Thread.isApplied =
      [true, false] := by decide +kernel
  refine ⟨hends, (schema_whole hknown (Machine.run_replay (by decide +kernel))).2 0 ?_⟩
  exact applied_of_map hends

end Migrations

end NextInfra
