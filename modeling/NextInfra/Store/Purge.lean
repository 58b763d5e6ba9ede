import NextInfra.Lib.Transaction
import NextInfra.Store.Commit

/-!
# The projection store: purging a connection

`purge_connection` deletes a connection with everything that hangs on it. The
deletions run from the referencing tables to the referenced ones, so the only
foreign key they can break is a run of this connection that a row of another
connection names.

`Integral` is the foreign key to `connections` of the three tables that have one;
every write keeps it, so a store without a connection has no row of it.
-/

namespace NextInfra

structure ConnectionPurgeSummary where
  resources : Nat
  relations : Nat
  resourceVersions : Nat
  relationVersions : Nat
  changes : Nat
  bindings : Nat
  syncRuns : Nat
deriving DecidableEq

namespace Store

/-! ## §1  What belongs to a connection -/

section

variable (s : Store) (id : ConnectionId)

/-- `SELECT resource_id FROM resources WHERE connection_id = ?1`. -/
def ownsResource (resourceId : ResourceId) : Bool :=
  s.resources.rows.any fun r => decide (r.connectionId = id) && decide (r.resourceId = resourceId)

/-- One of two endpoints belongs to the connection. -/
def touches (source target : ResourceId) : Bool :=
  s.ownsResource id source || s.ownsResource id target

def ownsRelation (relationId : RelationId) : Bool :=
  s.relations.rows.any fun r =>
    s.touches id r.sourceResourceId r.targetResourceId && decide (r.relationId = relationId)

def ownsBinding (bindingId : BindingId) : Bool :=
  s.bindings.rows.any fun b =>
    s.touches id b.sourceResourceId b.targetResourceId && decide (b.bindingId = bindingId)

def ownsSubject : ChangeSubject → Bool
  | .resource resourceId => s.ownsResource id resourceId
  | .relation relationId => s.ownsRelation id relationId
  | .binding bindingId => s.ownsBinding id bindingId

def ownsRun (runId : SyncRunId) : Bool :=
  s.syncRuns.rows.any fun run => decide (run.connectionId = id) && decide (run.syncRunId = runId)

def connectionPurgeSummary : Option ConnectionPurgeSummary :=
  if (s.connections.get id).isNone then none
  else some
    { resources := s.resources.rows.countP fun r => decide (r.connectionId = id)
      relations := s.relations.rows.countP fun r =>
        s.touches id r.sourceResourceId r.targetResourceId
      resourceVersions := s.resourceVersions.rows.countP fun v => s.ownsResource id v.resourceId
      relationVersions := s.relationVersions.rows.countP fun v => s.ownsRelation id v.relationId
      changes := s.changes.rows.countP fun c => s.ownsSubject id c.subject
      bindings := s.bindings.rows.countP fun b =>
        s.touches id b.sourceResourceId b.targetResourceId
      syncRuns := s.syncRuns.rows.countP fun run => decide (run.connectionId = id) }

def previewConnectionPurge : Option ConnectionPurgeSummary := s.connectionPurgeSummary id

/-! ## §2  The ten deletes

A delete is refused when a row that stays references a row that goes; the
subqueries read the tables as the deletes before left them. -/

def deleteInferenceOutputs : Except StoreError Store :=
  .ok { s with
    inferenceOutputs := s.inferenceOutputs.keep fun o => !s.ownsRelation id o.relationId }

def deleteRelationVersions : Except StoreError Store :=
  .ok { s with
    relationVersions := s.relationVersions.keep fun v => !s.ownsRelation id v.relationId }

def deleteChanges : Except StoreError Store :=
  .ok { s with changes := s.changes.keep fun c => !s.ownsSubject id c.subject }

def deleteBindings : Except StoreError Store :=
  .ok { s with
    bindings := s.bindings.keep fun b => !s.touches id b.sourceResourceId b.targetResourceId }

/-- Versions and inference outputs reference relations. -/
def deleteRelations : Except StoreError Store :=
  if s.relationVersions.rows.any (fun v => s.ownsRelation id v.relationId) ||
      s.inferenceOutputs.rows.any (fun o => s.ownsRelation id o.relationId) then
    .error (.sqlite .foreignKey)
  else .ok { s with
    relations := s.relations.keep fun r => !s.touches id r.sourceResourceId r.targetResourceId }

def deleteResourceVersions : Except StoreError Store :=
  .ok { s with
    resourceVersions := s.resourceVersions.keep fun v => !s.ownsResource id v.resourceId }

/-- Versions, relations and bindings reference resources. -/
def deleteResources : Except StoreError Store :=
  if s.resourceVersions.rows.any (fun v => s.ownsResource id v.resourceId) ||
      (s.relations.rows.any (fun r => s.touches id r.sourceResourceId r.targetResourceId) ||
        s.bindings.rows.any (fun b => s.touches id b.sourceResourceId b.targetResourceId)) then
    .error (.sqlite .foreignKey)
  else .ok { s with resources := s.resources.keep fun r => decide (r.connectionId ≠ id) }

def deleteConnectorState : Except StoreError Store :=
  .ok { s with connectorState := s.connectorState.erase id }

/-- Resources and their versions reference runs. -/
def deleteSyncRuns : Except StoreError Store :=
  if s.resources.rows.any (fun r => s.ownsRun id r.lastSyncRunId) ||
      s.resourceVersions.rows.any (fun v => s.ownsRun id v.syncRunId) then
    .error (.sqlite .foreignKey)
  else .ok { s with syncRuns := s.syncRuns.keep fun run => decide (run.connectionId ≠ id) }

/-- Connector state, runs and resources reference connections; the secret goes
by `ON DELETE CASCADE`. -/
def deleteConnection : Except StoreError Store :=
  if s.connectorState.rows.any (fun c => decide (c.connectionId = id)) ||
      (s.syncRuns.rows.any (fun run => decide (run.connectionId = id)) ||
        s.resources.rows.any (fun r => decide (r.connectionId = id))) then
    .error (.sqlite .foreignKey)
  else if (s.connections.get id).isNone then
    .error (.contract "connection disappeared during purge")
  else .ok { s with
    connections := s.connections.erase id
    connectionSecrets := s.connectionSecrets.erase id }

end

/-- The statements of a purge, in order, the revision last. -/
def purgeStatements (id : ConnectionId) : List (Store → Except StoreError Store) :=
  [fun s => s.deleteInferenceOutputs id, fun s => s.deleteRelationVersions id,
    fun s => s.deleteChanges id, fun s => s.deleteBindings id, fun s => s.deleteRelations id,
    fun s => s.deleteResourceVersions id, fun s => s.deleteResources id,
    fun s => s.deleteConnectorState id, fun s => s.deleteSyncRuns id,
    fun s => s.deleteConnection id, fun s => .ok s.bump]

def purgeConnection (s : Store) (id : ConnectionId) :
    Except StoreError (ConnectionPurgeSummary × Store) :=
  match s.connectionPurgeSummary id with
  | none => .error (.contract "connection does not exist for purge")
  | some summary => (Transaction.run (purgeStatements id) s).map fun s' => (summary, s')

/-! ## §3  What the deletes leave -/

section

variable (s : Store) (id : ConnectionId)

/-- A row that stays names a run that goes. -/
def runStillNamed : Bool :=
  s.resources.rows.any (fun r => decide (r.connectionId ≠ id) && s.ownsRun id r.lastSyncRunId) ||
    s.resourceVersions.rows.any fun v =>
      !s.ownsResource id v.resourceId && s.ownsRun id v.syncRunId

/-- The tables after the purge. -/
def purged : Store :=
  { s with
    inferenceOutputs := s.inferenceOutputs.keep fun o => !s.ownsRelation id o.relationId
    relationVersions := s.relationVersions.keep fun v => !s.ownsRelation id v.relationId
    changes := s.changes.keep fun c => !s.ownsSubject id c.subject
    bindings := s.bindings.keep fun b => !s.touches id b.sourceResourceId b.targetResourceId
    relations := s.relations.keep fun r => !s.touches id r.sourceResourceId r.targetResourceId
    resourceVersions := s.resourceVersions.keep fun v => !s.ownsResource id v.resourceId
    resources := s.resources.keep fun r => decide (r.connectionId ≠ id)
    connectorState := s.connectorState.erase id
    syncRuns := s.syncRuns.keep fun run => decide (run.connectionId ≠ id)
    connections := s.connections.erase id
    connectionSecrets := s.connectionSecrets.erase id }.bump

end

section

variable {s : Store} {id : ConnectionId}

/-- A stored relation belongs to the connection iff it touches it: ids are unique. -/
theorem ownsRelation_eq_touches {r : Relation} (hr : r ∈ s.relations.rows) :
    s.ownsRelation id r.relationId = s.touches id r.sourceResourceId r.targetResourceId := by
  unfold ownsRelation
  rw [Bool.eq_iff_iff, List.any_eq_true]
  constructor
  · rintro ⟨x, hx, hboth⟩
    rw [Bool.and_eq_true, decide_eq_true_eq] at hboth
    rw [← s.relations.row_unique hx hr hboth.2]
    exact hboth.1
  · intro htouches
    exact ⟨r, hr, by simp [htouches]⟩

end

/-- No row is left that a test asks for once the rows failing it are kept. -/
theorem any_keep_not {κ ρ : Type} [LinearOrder κ] {key : ρ → κ} (t : KeyedTable key)
    (p : ρ → Bool) : (t.keep fun r => !p r).rows.any p = false := by
  rw [List.any_eq_false]
  intro r hr
  have hnot := (KeyedTable.mem_keep.mp hr).2
  simpa using hnot

theorem any_keep {κ ρ : Type} [LinearOrder κ] {key : ρ → κ} (t : KeyedTable key)
    (p q : ρ → Bool) : (t.keep p).rows.any q = t.rows.any fun r => p r && q r := by
  unfold KeyedTable.keep
  rw [List.any_filter]

section

variable (s : Store) (id : ConnectionId)

/-- The working copy before `DELETE FROM relations`: versions and outputs of the
relations are gone. -/
def purgedHistory : Store :=
  { s with
    inferenceOutputs := s.inferenceOutputs.keep fun o => !s.ownsRelation id o.relationId
    relationVersions := s.relationVersions.keep fun v => !s.ownsRelation id v.relationId
    changes := s.changes.keep fun c => !s.ownsSubject id c.subject
    bindings := s.bindings.keep fun b => !s.touches id b.sourceResourceId b.targetResourceId }

/-- The working copy before `DELETE FROM resources`. -/
def purgedGraph : Store :=
  { s.purgedHistory id with
    relations := s.relations.keep fun r => !s.touches id r.sourceResourceId r.targetResourceId
    resourceVersions := s.resourceVersions.keep fun v => !s.ownsResource id v.resourceId }

/-- The working copy before `DELETE FROM sync_runs`. -/
def purgedResources : Store :=
  { s.purgedGraph id with
    resources := s.resources.keep fun r => decide (r.connectionId ≠ id)
    connectorState := s.connectorState.erase id }

theorem deleteRelations_history :
    (s.purgedHistory id).deleteRelations id =
      .ok { s.purgedHistory id with
        relations := s.relations.keep fun r =>
          !s.touches id r.sourceResourceId r.targetResourceId } := by
  have hversions : (s.purgedHistory id).relationVersions.rows.any
      (fun v => (s.purgedHistory id).ownsRelation id v.relationId) = false :=
    any_keep_not s.relationVersions fun v => s.ownsRelation id v.relationId
  have houtputs : (s.purgedHistory id).inferenceOutputs.rows.any
      (fun o => (s.purgedHistory id).ownsRelation id o.relationId) = false :=
    any_keep_not s.inferenceOutputs fun o => s.ownsRelation id o.relationId
  unfold deleteRelations
  rw [hversions, houtputs]
  rfl

theorem deleteResources_graph :
    (s.purgedGraph id).deleteResources id =
      .ok { s.purgedGraph id with
        resources := s.resources.keep fun r => decide (r.connectionId ≠ id) } := by
  have hversions : (s.purgedGraph id).resourceVersions.rows.any
      (fun v => (s.purgedGraph id).ownsResource id v.resourceId) = false :=
    any_keep_not s.resourceVersions fun v => s.ownsResource id v.resourceId
  have hrelations : (s.purgedGraph id).relations.rows.any
      (fun r => (s.purgedGraph id).touches id r.sourceResourceId r.targetResourceId) = false :=
    any_keep_not s.relations fun r => s.touches id r.sourceResourceId r.targetResourceId
  have hbindings : (s.purgedGraph id).bindings.rows.any
      (fun b => (s.purgedGraph id).touches id b.sourceResourceId b.targetResourceId) = false :=
    any_keep_not s.bindings fun b => s.touches id b.sourceResourceId b.targetResourceId
  unfold deleteResources
  rw [hversions, hrelations, hbindings]
  rfl

/-- Only the kept resources and versions can still name a run. -/
theorem deleteSyncRuns_resources :
    (s.purgedResources id).deleteSyncRuns id =
      if s.runStillNamed id then .error (.sqlite .foreignKey)
      else .ok { s.purgedResources id with
        syncRuns := s.syncRuns.keep fun run => decide (run.connectionId ≠ id) } := by
  have hresources : (s.purgedResources id).resources.rows.any
      (fun r => (s.purgedResources id).ownsRun id r.lastSyncRunId) =
        s.resources.rows.any fun r =>
          decide (r.connectionId ≠ id) && s.ownsRun id r.lastSyncRunId :=
    any_keep s.resources _ _
  have hversions : (s.purgedResources id).resourceVersions.rows.any
      (fun v => (s.purgedResources id).ownsRun id v.syncRunId) =
        s.resourceVersions.rows.any fun v =>
          !s.ownsResource id v.resourceId && s.ownsRun id v.syncRunId :=
    any_keep s.resourceVersions _ _
  unfold deleteSyncRuns
  rw [hresources, hversions]
  rfl

/-- The last delete finds no row that references the connection. -/
theorem deleteConnection_last (hsome : (s.connections.get id).isSome) :
    ({ s.purgedResources id with
        syncRuns := s.syncRuns.keep fun run => decide (run.connectionId ≠ id) } :
      Store).deleteConnection id =
      .ok { s.purgedResources id with
        syncRuns := s.syncRuns.keep fun run => decide (run.connectionId ≠ id)
        connections := s.connections.erase id
        connectionSecrets := s.connectionSecrets.erase id } := by
  have hgone : ∀ {κ ρ : Type} [LinearOrder κ] {key : ρ → κ} (t : KeyedTable key)
      (conn : ρ → ConnectionId), (t.keep fun r => decide (conn r ≠ id)).rows.any
        (fun r => decide (conn r = id)) = false := by
    intro κ ρ _ key t conn
    rw [any_keep, List.any_eq_false]
    intro r _
    simp
  have hstate : (s.connectorState.erase id).rows.any
      (fun c => decide (c.connectionId = id)) = false :=
    hgone s.connectorState ConnectorState.connectionId
  have hruns := hgone s.syncRuns SyncRun.connectionId
  have hresources := hgone s.resources Resource.connectionId
  unfold deleteConnection
  rw [if_neg (by
    show ¬ ((s.connectorState.erase id).rows.any _ || _) = true
    rw [hstate]
    show ¬ (false || ((s.syncRuns.keep _).rows.any _ || (s.resources.keep _).rows.any _)) = true
    rw [hruns, hresources]
    decide), if_neg (by
      show ¬ (s.connections.get id).isNone
      simpa [Option.isSome_iff_ne_none] using hsome)]
  rfl

/-- A purge can only be refused by a run that another connection's row names. -/
theorem run_purgeStatements (hsome : (s.connections.get id).isSome) :
    Transaction.run (purgeStatements id) s =
      if s.runStillNamed id then .error (.sqlite .foreignKey) else .ok (s.purged id) := by
  unfold purgeStatements
  simp only [Transaction.run_cons]
  show ((s.purgedHistory id).deleteRelations id >>= _) = _
  rw [deleteRelations_history]
  show ((s.purgedGraph id).deleteResources id >>= _) = _
  rw [deleteResources_graph]
  show ((s.purgedResources id).deleteSyncRuns id >>= _) = _
  rw [deleteSyncRuns_resources]
  by_cases hnamed : s.runStillNamed id = true
  · rw [if_pos hnamed, if_pos hnamed]
    rfl
  · rw [if_neg hnamed, if_neg hnamed]
    show (Store.deleteConnection _ id >>= _) = _
    rw [deleteConnection_last s id hsome]
    rfl

end

theorem purgeConnection_ok {s s' : Store} {id : ConnectionId} {summary : ConnectionPurgeSummary}
    (h : s.purgeConnection id = .ok (summary, s')) :
    (s.connections.get id).isSome ∧ s.runStillNamed id = false ∧
      s.connectionPurgeSummary id = some summary ∧ s' = s.purged id := by
  unfold purgeConnection at h
  cases hsummary : s.connectionPurgeSummary id with
  | none => simp [hsummary] at h
  | some found =>
      simp only [hsummary] at h
      have hsome : (s.connections.get id).isSome := by
        unfold connectionPurgeSummary at hsummary
        split at hsummary
        · cases hsummary
        · rename_i hnone
          simpa [Option.isSome_iff_ne_none] using hnone
      rw [run_purgeStatements s id hsome] at h
      by_cases hnamed : s.runStillNamed id = true
      · rw [if_pos hnamed] at h
        cases h
      · rw [if_neg hnamed] at h
        cases h
        exact ⟨hsome, by simpa using hnamed, rfl, rfl⟩

end Store

namespace Store

/-! ## §4  Rows without a connection -/

/-- Every run, resource and connector state is of a stored connection. -/
structure Integral (s : Store) : Prop where
  syncRuns : ∀ run ∈ s.syncRuns.rows, (s.connections.get run.connectionId).isSome
  resources : ∀ r ∈ s.resources.rows, (s.connections.get r.connectionId).isSome
  connectorState : ∀ c ∈ s.connectorState.rows, (s.connections.get c.connectionId).isSome

/-- No row with this connection id in the four tables that have one. -/
structure NoRowOf (s : Store) (id : ConnectionId) : Prop where
  connections : ∀ c ∈ s.connections.rows, c.connectionId ≠ id
  syncRuns : ∀ run ∈ s.syncRuns.rows, run.connectionId ≠ id
  resources : ∀ r ∈ s.resources.rows, r.connectionId ≠ id
  connectorState : ∀ c ∈ s.connectorState.rows, c.connectionId ≠ id

theorem Integral.noRowOf {s : Store} (h : s.Integral) {id : ConnectionId}
    (hnone : s.connections.get id = none) : s.NoRowOf id := by
  have hno : ∀ id', (s.connections.get id').isSome → id' ≠ id := by
    rintro id' hsome rfl
    rw [hnone] at hsome
    cases hsome
  exact
    { connections := fun c hc => KeyedTable.get_eq_none_iff.mp hnone c hc
      syncRuns := fun run hrun => hno _ (h.syncRuns run hrun)
      resources := fun r hr => hno _ (h.resources r hr)
      connectorState := fun c hc => hno _ (h.connectorState c hc) }

theorem get_purged_connections (s : Store) (id id' : ConnectionId) :
    (s.purged id).connections.get id' = if id' = id then none else s.connections.get id' :=
  KeyedTable.get_erase s.connections id id'

theorem Integral.purged {s : Store} (h : s.Integral) (id : ConnectionId) :
    (s.purged id).Integral where
  syncRuns := by
    intro run hrun
    obtain ⟨hrun, hne⟩ := KeyedTable.mem_keep.mp hrun
    rw [get_purged_connections, if_neg (of_decide_eq_true hne)]
    exact h.syncRuns run hrun
  resources := by
    intro r hr
    obtain ⟨hr, hne⟩ := KeyedTable.mem_keep.mp hr
    rw [get_purged_connections, if_neg (of_decide_eq_true hne)]
    exact h.resources r hr
  connectorState := by
    intro c hc
    obtain ⟨hc, hne⟩ := KeyedTable.mem_keep.mp hc
    rw [get_purged_connections, if_neg (of_decide_eq_true hne)]
    exact h.connectorState c hc

theorem Integral.upsertConnection {s : Store} (h : s.Integral) (connection : Connection) :
    (s.upsertConnection connection).Integral := by
  have hkeep : ∀ id, (s.connections.get id).isSome →
      ((s.upsertConnection connection).connections.get id).isSome := by
    intro id hid
    show ((s.connections.put connection).get id).isSome
    rw [KeyedTable.get_put]
    split
    · rfl
    · exact hid
  exact
    { syncRuns := fun run hrun => hkeep _ (h.syncRuns run hrun)
      resources := fun r hr => hkeep _ (h.resources r hr)
      connectorState := fun c hc => hkeep _ (h.connectorState c hc) }

theorem upsertConnectionSecret_ok {s s' : Store} {id : ConnectionId} {secret : List UInt8}
    (h : s.upsertConnectionSecret id secret = .ok s') :
    s' = { s with
      connectionSecrets := s.connectionSecrets.put { connectionId := id, secret := secret } } := by
  unfold upsertConnectionSecret at h
  split at h
  · cases h
  · cases h
    rfl

theorem Integral.startSyncRun {s s' : Store} (h : s.Integral) {run : SyncRun}
    (hok : s.startSyncRun run = .ok s') : s'.Integral := by
  obtain ⟨_, hconn, _, rfl⟩ := startSyncRun_ok hok
  refine ⟨?_, h.resources, h.connectorState⟩
  intro x hx
  rcases KeyedTable.mem_put.mp hx with rfl | ⟨hx', _⟩
  · exact hconn
  · exact h.syncRuns x hx'

theorem Integral.commitSync {s s' : Store} (h : s.Integral) {c : SyncCommit} {r : CommitResult}
    (hok : s.commitSync c = .ok (r, s')) : s'.Integral := by
  have heff := commitSync_ok hok
  have hconn := heff.connected
  obtain ⟨stored, hstored, hsame, hruns⟩ := heff.started
  obtain ⟨_, hprovenance, _⟩ := validateCommit_ok heff.valid
  refine ⟨?_, ?_, ?_⟩
  · intro run hrun
    rw [heff.connections]
    rw [hruns] at hrun
    rcases KeyedTable.mem_put.mp hrun with rfl | ⟨hrun', _⟩
    · show (s.connections.get stored.connectionId).isSome
      rw [hsame]
      exact hconn
    · exact h.syncRuns run hrun'
  · intro x hx
    rw [heff.connections]
    rw [heff.resources] at hx
    by_cases htouched : ∃ row ∈ c.resources, row.resourceId = x.resourceId
    · obtain ⟨row, hrow, hid⟩ := htouched
      obtain ⟨row', hrow', hid', y, hy, hlands⟩ :=
        resourceRule.get_applyAll_of_mem (t := s.resources) hrow
      rw [hid, KeyedTable.get_of_mem hx] at hy
      cases hy
      have hsameconn : x.connectionId = row'.connectionId := by
        rcases hlands with rfl | ⟨old, rfl⟩
        · rfl
        · rfl
      rw [hsameconn, (hprovenance row' hrow').1]
      exact hconn
    · have hget := resourceRule.get_applyAll_of_not_mem (t := s.resources)
        (fun row hrow e => htouched ⟨row, hrow, e⟩)
      have hold : x ∈ s.resources.rows := by
        rw [KeyedTable.mem_iff_get, ← hget]
        exact KeyedTable.get_of_mem hx
      exact h.resources x hold
  · intro x hx
    rw [heff.connections]
    rw [heff.connectorState] at hx
    rcases KeyedTable.mem_put.mp hx with rfl | ⟨hx', _⟩
    · exact hconn
    · exact h.connectorState x hx'

end Store

end NextInfra
