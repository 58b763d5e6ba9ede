import NextInfra.Core.LocalRelation
import NextInfra.Store.LocalCommits
import NextInfra.Sync.Plan

/-!
# The binding service

`BindingService` creates, updates, disables and reconciles bindings over any
`BindingStore`. Each operation checks, derives the binding's next row and hands
one `BindingCommit` to the store; the commit carries the configured relation the
binding projects to and, when endpoints or kind changed, the tombstone of the
relation it projected to before.

`uuid` and the digest of a snapshot are third-party code and stand as arguments.
§5 says once what an operation that succeeds did.
-/

namespace NextInfra

/-! ## §1  Ports and errors -/

structure BindingInput where
  sourceResourceId : ResourceId
  targetResourceId : ResourceId
  kind : RelationKind
deriving DecidableEq

inductive BindingError (ε : Type)
  | store (error : ε)
  | invalid (error : DomainError)
  | notFound
  | duplicate
  | temporalConflict
deriving DecidableEq

/-- The `BindingStore` methods the service calls. A commit that fails leaves the
store as it was. -/
class BindingStore (σ : Type) (ε : outParam Type) extends StoreReader σ ε where
  getBinding : σ → BindingId → Except ε (Option Binding)
  listBindings : σ → Except ε (List Binding)
  commitBinding : σ → BindingCommit → Except ε σ

namespace Store

def getBinding (s : Store) (id : BindingId) : Option Binding := s.bindings.get id

/-- `ORDER BY binding_id` is the row order of the table. -/
def listBindings (s : Store) : List Binding := s.bindings.rows

end Store

instance : BindingStore Store StoreError where
  getBinding s id := .ok (s.getBinding id)
  listBindings s := .ok s.listBindings
  commitBinding := Store.commitBinding

/-! ## §2  The configured relation of a binding -/

/-- `binding:v1:{uuid}`. -/
def bindingIdOf (uuid : Uuid) : BindingId where
  val := "binding:v1:" ++ uuid.text
  trimmed := trimmed_of_visible ⟨'b', _, rfl, by decide⟩ uuid.endsVisible

namespace Binding

/-- `relation_id`. -/
def relationId (b : Binding) : RelationId where
  val := "binding-relation:" ++ b.bindingId.val ++ ":" ++ b.sourceResourceId.val ++ ":" ++
    b.targetResourceId.val ++ ":" ++ b.kind.val
  trimmed := by
    have hhead : StartsVisible "binding-relation:" := ⟨'b', _, rfl, by decide⟩
    exact trimmed_of_visible ((((((hhead.append b.bindingId.val).append ":").append
      b.sourceResourceId.val).append ":").append b.targetResourceId.val).append ":")
      b.kind.endsVisible

/-- `binding:{binding_id}`. -/
def evidenceKey (b : Binding) : EvidenceKey where
  val := "binding:" ++ b.bindingId.val
  trimmed := trimmed_of_visible ⟨'b', _, rfl, by decide⟩ b.bindingId.trimmed.last_visible

/-- `configured_relation`. -/
def configuredRelation (b : Binding) (lifecycle : Lifecycle) (at_ : Timestamp) : Relation where
  relationId := b.relationId
  sourceResourceId := b.sourceResourceId
  targetResourceId := b.targetResourceId
  kind := b.kind
  evidenceKey := b.evidenceKey
  evidence := .configured b.bindingId
  firstSeenAt := b.createdAt
  lastSeenAt := at_
  lifecycle := lifecycle

end Binding

/-- `relation_lifecycle`. -/
def BindingStatus.relationLifecycle : BindingStatus → Lifecycle
  | .active => .active
  | .unresolved => .orphaned
  | .disabled => .tombstoned

/-! ## §3  The commit of a binding -/

/-- The id of the configured version of a relation at a time. -/
def bindingRelationVersionId (id : RelationId) (at_ : Timestamp) : RelationVersionId :=
  stamped "binding-relation-version" ⟨'b', _, rfl, by decide⟩ id at_

def bindingChangeId (id : BindingId) (at_ : Timestamp) : ChangeId :=
  stamped "binding-change" ⟨'b', _, rfl, by decide⟩ id at_

namespace Binding

/-- `field_change`: one entry if the value is new. -/
def fieldChange (path : FieldPath) (before : Option Value) (after : Value) : List FieldChange :=
  if before = some after then []
  else [{ path := path, before := before, after := some after }]

def FieldPath.sourceResourceId : FieldPath := ⟨"binding.source_resource_id", by decide⟩

def FieldPath.targetResourceId : FieldPath := ⟨"binding.target_resource_id", by decide⟩

def FieldPath.kind : FieldPath := ⟨"binding.kind", by decide⟩

def FieldPath.status : FieldPath := ⟨"binding.status", by decide⟩

/-- `binding_changes`. -/
def changes (previous : Option Binding) (current : Binding) : List FieldChange :=
  fieldChange FieldPath.sourceResourceId
      (previous.map fun b => .string b.sourceResourceId.val) (.string current.sourceResourceId.val) ++
    (fieldChange FieldPath.targetResourceId
        (previous.map fun b => .string b.targetResourceId.val)
        (.string current.targetResourceId.val) ++
      (fieldChange FieldPath.kind
          (previous.map fun b => .string b.kind.val) (.string current.kind.val) ++
        fieldChange FieldPath.status
          (previous.map fun b => b.status.toValue) current.status.toValue))

/-- Endpoints or kind differ. -/
def identityChanged (old new : Binding) : Bool :=
  decide (old.sourceResourceId ≠ new.sourceResourceId) ||
    (decide (old.targetResourceId ≠ new.targetResourceId) || decide (old.kind ≠ new.kind))

section

variable (digest : Value → Fingerprint)

/-- `relation_version`. -/
def relationVersion (relation : Relation) (bindingId : BindingId) (at_ : Timestamp) :
    RelationVersion where
  relationVersionId := bindingRelationVersionId relation.relationId at_
  relationId := relation.relationId
  observedAt := at_
  normalizedSnapshot := localSnapshot relation
  fingerprint := digest (localSnapshot relation)
  schemaVersion := .one
  origin := .binding bindingId

/-- The relations of a commit: the tombstone of the former one, if the binding
moved, and the present one. -/
def commitRelations (previous : Option Binding) (b : Binding) (at_ : Timestamp) : List Relation :=
  ((previous.filter fun old => identityChanged old b).map fun old =>
      old.configuredRelation .tombstoned at_).toList ++
    [b.configuredRelation b.status.relationLifecycle at_]

/-- `binding_commit`. -/
def commit (previous : Option Binding) (b : Binding) (at_ : Timestamp) : BindingCommit :=
  let relations := commitRelations previous b at_
  let fields := changes previous b
  { binding := b
    relations := relations
    relationVersions := relations.map fun relation => relationVersion digest relation b.bindingId at_
    changes :=
      if fields.isEmpty then []
      else
        [{ changeId := bindingChangeId b.bindingId at_
           subject := .binding b.bindingId
           observedAt := at_
           fields := fields
           origin := .binding b.bindingId }] }

end

end Binding

/-! ## §4  The operations -/

namespace BindingService

section

variable {ε : Type}

def validateInput (input : BindingInput) : Except (BindingError ε) Unit :=
  if input.sourceResourceId = input.targetResourceId then
    .error (.invalid (.invalidValue "binding source and target must be different"))
  else .ok ()

def ensureLater (at_ previous : Timestamp) : Except (BindingError ε) Unit :=
  if at_ ≤ previous then .error .temporalConflict else .ok ()

/-- `.map_err(BindingError::Store)?`. -/
def stored {α : Type} (result : Except ε α) : Except (BindingError ε) α := result.mapError .store

/-- `.ok_or(BindingError::NotFound)`. -/
def requireFound : Option Binding → Except (BindingError ε) Binding
  | some b => .ok b
  | none => .error .notFound

/-- A binding other than `excluded` that is not disabled has the endpoints and
kind of the input. -/
def clashes (input : BindingInput) (excluded : Option BindingId) (b : Binding) : Bool :=
  decide (excluded ≠ some b.bindingId) &&
    (decide (b.sourceResourceId = input.sourceResourceId) &&
      (decide (b.targetResourceId = input.targetResourceId) &&
        (decide (b.kind = input.kind) && decide (b.status ≠ .disabled))))

end

section

variable {σ ε : Type} [BindingStore σ ε]

def binding (store : σ) (id : BindingId) : Except (BindingError ε) Binding := do
  let found ← stored (BindingStore.getBinding store id)
  requireFound found

/-- Stored and active. -/
def isActive (resource : Option Resource) : Bool :=
  resource.any fun r => decide (r.lifecycle = .active)

def endpointStatus (store : σ) (input : BindingInput) : Except (BindingError ε) BindingStatus := do
  let source ← stored (StoreReader.getResource store input.sourceResourceId)
  let target ← stored (StoreReader.getResource store input.targetResourceId)
  return if isActive source && isActive target then .active else .unresolved

def ensureUnique (store : σ) (input : BindingInput) (excluded : Option BindingId) :
    Except (BindingError ε) Unit := do
  let bindings ← stored (BindingStore.listBindings store)
  if bindings.any (clashes input excluded) then .error .duplicate else .ok ()

/-- Only a binding that is not disabled has to be unique. -/
def ensureUpdateUnique (store : σ) (existing : Binding) (input : BindingInput) :
    Except (BindingError ε) Unit :=
  if existing.status = .disabled then .ok ()
  else ensureUnique store input (some existing.bindingId)

/-- A disabled binding stays disabled. -/
def updatedStatus (store : σ) (existing : Binding) (input : BindingInput) :
    Except (BindingError ε) BindingStatus :=
  if existing.status = .disabled then .ok .disabled else endpointStatus store input

variable (digest : Value → Fingerprint)

/-- Hand the commit to the store. -/
def save (store : σ) (previous : Option Binding) (b : Binding) (at_ : Timestamp) :
    Except (BindingError ε) (Binding × σ) := do
  let store ← stored (BindingStore.commitBinding store (Binding.commit digest previous b at_))
  return (b, store)

def create (store : σ) (input : BindingInput) (at_ : Timestamp) (uuid : Uuid) :
    Except (BindingError ε) (Binding × σ) := do
  validateInput input
  ensureUnique store input none
  let status ← endpointStatus store input
  save digest store none
    { bindingId := bindingIdOf uuid
      sourceResourceId := input.sourceResourceId
      targetResourceId := input.targetResourceId
      kind := input.kind
      status := status
      createdAt := at_
      updatedAt := at_ } at_

/-- The row `update` leaves. -/
def updated (existing : Binding) (input : BindingInput) (status : BindingStatus)
    (at_ : Timestamp) : Binding :=
  { bindingId := existing.bindingId
    sourceResourceId := input.sourceResourceId
    targetResourceId := input.targetResourceId
    kind := input.kind
    status := status
    createdAt := existing.createdAt
    updatedAt := at_ }

def update (store : σ) (id : BindingId) (input : BindingInput) (at_ : Timestamp) :
    Except (BindingError ε) (Binding × σ) := do
  validateInput input
  let existing ← binding store id
  ensureLater at_ existing.updatedAt
  ensureUpdateUnique store existing input
  let status ← updatedStatus store existing input
  if updated existing input status at_ = existing then .ok (existing, store)
  else save digest store (some existing) (updated existing input status at_) at_

def disable (store : σ) (id : BindingId) (at_ : Timestamp) :
    Except (BindingError ε) (Binding × σ) := do
  let existing ← binding store id
  if existing.status = .disabled then .ok (existing, store)
  else do
    ensureLater at_ existing.updatedAt
    save digest store (some existing) { existing with status := .disabled, updatedAt := at_ } at_

/-- The endpoints and kind a binding has. -/
def inputOf (b : Binding) : BindingInput where
  sourceResourceId := b.sourceResourceId
  targetResourceId := b.targetResourceId
  kind := b.kind

def reconcile (store : σ) (id : BindingId) (at_ : Timestamp) :
    Except (BindingError ε) (Binding × σ) := do
  let existing ← binding store id
  if existing.status = .disabled then .ok (existing, store)
  else do
    let status ← endpointStatus store (inputOf existing)
    if status = existing.status then .ok (existing, store)
    else do
      ensureLater at_ existing.updatedAt
      save digest store (some existing) { existing with status := status, updatedAt := at_ } at_

end

end BindingService

/-! ## §5  What an operation that succeeds did -/

inductive BindingCall
  | create (input : BindingInput) (at_ : Timestamp) (uuid : Uuid)
  | update (id : BindingId) (input : BindingInput) (at_ : Timestamp)
  | disable (id : BindingId) (at_ : Timestamp)
  | reconcile (id : BindingId) (at_ : Timestamp)

namespace BindingCall

variable {σ ε : Type} [BindingStore σ ε] (digest : Value → Fingerprint)

def run (store : σ) : BindingCall → Except (BindingError ε) (Binding × σ)
  | .create input at_ uuid => BindingService.create digest store input at_ uuid
  | .update id input at_ => BindingService.update digest store id input at_
  | .disable id at_ => BindingService.disable digest store id at_
  | .reconcile id at_ => BindingService.reconcile digest store id at_

/-- The UUID a call draws. -/
def drawn : BindingCall → List Uuid
  | .create _ _ uuid => [uuid]
  | .update _ _ _ => []
  | .disable _ _ => []
  | .reconcile _ _ => []

end BindingCall

/-- The status the stored endpoints give. -/
def Store.endpointStatus (s : Store) (input : BindingInput) : BindingStatus :=
  if BindingService.isActive (s.getResource input.sourceResourceId) &&
      BindingService.isActive (s.getResource input.targetResourceId) then .active
  else .unresolved

/-- No enabled binding other than `excluded` has the input's endpoints and kind. -/
def Store.FreeFor (s : Store) (input : BindingInput) (excluded : Option BindingId) : Prop :=
  ∀ b ∈ s.bindings.rows, BindingService.clashes input excluded b = false

open BindingService in
/-- What an operation did to the store, and the binding it returned. -/
inductive BindingStep (digest : Value → Fingerprint) (s : Store) :
    BindingCall → Binding → Store → Prop
  /-- The binding is as it should be already. -/
  | kept {call : BindingCall} {b : Binding} (stored : s.bindings.get b.bindingId = some b) :
      BindingStep digest s call b s
  | created {input : BindingInput} {at_ : Timestamp} {uuid : Uuid} {b : Binding} {s' : Store}
      (distinct : input.sourceResourceId ≠ input.targetResourceId)
      (free : s.FreeFor input none)
      (row : b = { bindingId := bindingIdOf uuid
                   sourceResourceId := input.sourceResourceId
                   targetResourceId := input.targetResourceId
                   kind := input.kind
                   status := s.endpointStatus input
                   createdAt := at_
                   updatedAt := at_ })
      (effect : BindingEffect s (Binding.commit digest none b at_) s') :
      BindingStep digest s (.create input at_ uuid) b s'
  /-- New endpoints or kind; a disabled binding stays disabled. -/
  | moved {id : BindingId} {input : BindingInput} {at_ : Timestamp} {existing b : Binding}
      {status : BindingStatus} {s' : Store}
      (distinct : input.sourceResourceId ≠ input.targetResourceId)
      (stored : s.bindings.get id = some existing)
      (later : existing.updatedAt < at_)
      (free : existing.status = .disabled ∧ status = .disabled ∨
        existing.status ≠ .disabled ∧ status = s.endpointStatus input ∧ s.FreeFor input (some id))
      (row : b = updated existing input status at_)
      (effect : BindingEffect s (Binding.commit digest (some existing) b at_) s') :
      BindingStep digest s (.update id input at_) b s'
  /-- The same endpoints and kind under another status. -/
  | restated {call : BindingCall} {at_ : Timestamp} {existing b : Binding}
      {status : BindingStatus} {s' : Store}
      (stored : s.bindings.get existing.bindingId = some existing)
      (enabled : existing.status ≠ .disabled)
      (later : existing.updatedAt < at_)
      (row : b = { existing with status := status, updatedAt := at_ })
      (effect : BindingEffect s (Binding.commit digest (some existing) b at_) s') :
      BindingStep digest s call b s'

namespace BindingService

theorem ensureLater_ok {ε : Type} {at_ previous : Timestamp}
    (h : (ensureLater at_ previous : Except (BindingError ε) Unit) = .ok ()) : previous < at_ := by
  unfold ensureLater at h
  split at h
  · cases h
  · rename_i hle
    exact not_le.mp hle

theorem validateInput_ok {ε : Type} {input : BindingInput}
    (h : (validateInput input : Except (BindingError ε) Unit) = .ok ()) :
    input.sourceResourceId ≠ input.targetResourceId := by
  unfold validateInput at h
  split at h
  · cases h
  · rename_i hne
    exact hne

variable {s s' : Store} {digest : Value → Fingerprint}

theorem binding_ok {id : BindingId} {b : Binding}
    (h : (binding s id : Except (BindingError StoreError) Binding) = .ok b) :
    s.bindings.get id = some b := by
  change requireFound (s.bindings.get id) = _ at h
  cases hg : s.bindings.get id with
  | none =>
      rw [hg] at h
      cases h
  | some found =>
      rw [hg] at h
      cases h
      rfl

theorem endpointStatus_eq (s : Store) (input : BindingInput) :
    (endpointStatus s input : Except (BindingError StoreError) BindingStatus) =
      .ok (s.endpointStatus input) := rfl

theorem ensureUnique_ok {input : BindingInput} {excluded : Option BindingId}
    (h : (ensureUnique s input excluded : Except (BindingError StoreError) Unit) = .ok ()) :
    s.FreeFor input excluded := by
  have hread : (ensureUnique s input excluded : Except (BindingError StoreError) Unit) =
      if s.bindings.rows.any (clashes input excluded) then .error .duplicate else .ok () := rfl
  rw [hread] at h
  split at h
  · cases h
  · rename_i hany
    intro b hb
    have hfalse := List.any_eq_false.mp (by simpa using hany)
    simpa using hfalse b hb

theorem save_ok {previous : Option Binding} {b b' : Binding} {at_ : Timestamp}
    (h : (save digest s previous b at_ : Except (BindingError StoreError) (Binding × Store)) =
      .ok (b', s')) :
    b' = b ∧ BindingEffect s (Binding.commit digest previous b at_) s' := by
  unfold save at h
  obtain ⟨store, hstore, h⟩ := bind_ok h
  cases h
  have hcommit : s.commitBinding (Binding.commit digest previous b at_) = .ok s' := by
    change (s.commitBinding (Binding.commit digest previous b at_)).mapError BindingError.store = _
      at hstore
    cases hc : s.commitBinding (Binding.commit digest previous b at_) with
    | error e => simp [hc, Except.mapError] at hstore
    | ok t => simpa [hc, Except.mapError] using hstore
  exact ⟨rfl, Store.commitBinding_ok hcommit⟩

/-- An operation that succeeds is one of the four steps. -/
theorem step_of_ok {call : BindingCall} {b : Binding}
    (h : (call.run digest s : Except (BindingError StoreError) (Binding × Store)) = .ok (b, s')) :
    BindingStep digest s call b s' := by
  cases call with
  | create input at_ uuid =>
      change create digest s input at_ uuid = _ at h
      unfold create at h
      obtain ⟨_, hvalid, h⟩ := bind_ok h
      obtain ⟨_, hunique, h⟩ := bind_ok h
      rw [endpointStatus_eq] at h
      obtain ⟨rfl, heffect⟩ := save_ok h
      exact .created (validateInput_ok hvalid) (ensureUnique_ok hunique) rfl heffect
  | update id input at_ =>
      change update digest s id input at_ = _ at h
      unfold update at h
      obtain ⟨_, hvalid, h⟩ := bind_ok h
      obtain ⟨existing, hexisting, h⟩ := bind_ok h
      obtain ⟨_, hlater, h⟩ := bind_ok h
      obtain ⟨_, hunique, h⟩ := bind_ok h
      obtain ⟨status, hstatus, h⟩ := bind_ok h
      have hstored := binding_ok hexisting
      split at h
      · cases h
        rw [← KeyedTable.key_of_get hstored] at hstored
        exact .kept hstored
      · obtain ⟨rfl, heffect⟩ := save_ok h
        refine .moved (validateInput_ok hvalid) hstored (ensureLater_ok hlater) ?_ rfl heffect
        unfold updatedStatus at hstatus
        unfold ensureUpdateUnique at hunique
        by_cases hdisabled : existing.status = .disabled
        · rw [if_pos hdisabled] at hstatus
          cases hstatus
          exact Or.inl ⟨hdisabled, rfl⟩
        · rw [if_neg hdisabled, endpointStatus_eq] at hstatus
          rw [if_neg hdisabled, KeyedTable.key_of_get hstored] at hunique
          cases hstatus
          exact Or.inr ⟨hdisabled, rfl, ensureUnique_ok hunique⟩
  | disable id at_ =>
      change disable digest s id at_ = _ at h
      unfold disable at h
      obtain ⟨existing, hexisting, h⟩ := bind_ok h
      have hstored := binding_ok hexisting
      rw [← KeyedTable.key_of_get hstored] at hstored
      split at h
      · cases h
        exact .kept hstored
      · rename_i henabled
        obtain ⟨_, hlater, h⟩ := bind_ok h
        obtain ⟨rfl, heffect⟩ := save_ok h
        exact .restated hstored henabled (ensureLater_ok hlater) rfl heffect
  | reconcile id at_ =>
      change reconcile digest s id at_ = _ at h
      unfold reconcile at h
      obtain ⟨existing, hexisting, h⟩ := bind_ok h
      have hstored := binding_ok hexisting
      rw [← KeyedTable.key_of_get hstored] at hstored
      split at h
      · cases h
        exact .kept hstored
      · rename_i henabled
        rw [endpointStatus_eq] at h
        obtain ⟨status, hstatus, h⟩ := bind_ok h
        cases hstatus
        split at h
        · cases h
          exact .kept hstored
        · obtain ⟨_, hlater, h⟩ := bind_ok h
          obtain ⟨rfl, heffect⟩ := save_ok h
          exact .restated hstored henabled (ensureLater_ok hlater) rfl heffect

end BindingService

end NextInfra
