import NextInfra.Desktop.Normalizers
import NextInfra.Query.Dto
import NextInfra.Sync.Queue

/-!
# The desktop sync functions

The seven `sync_*` functions have one shape: note the attempt, prepare the request
and the credential, start the run, ask the connector, end the run, save the
connection. `Provider` holds what they differ in, and `Provider.sync` is the shape;
each function is that at its own values.

Every step is one access to the shared store, so that other tasks can run between
them. A step that ends the function early leaves a `Return`: the result, and the
connection to save before returning it, if any.
-/

namespace NextInfra

/-! ## §1  Errors -/

def safeError (code message : String) : ErrorEnvelope where
  schemaVersion := queryDtoSchemaVersion
  code := code
  message := message
  retryable := false

/-- A safe error that may be retried, as `dokploy_unreachable_error` and its
siblings build it. -/
def retryableError (code message : String) : ErrorEnvelope :=
  { safeError code message with retryable := true }

def connectorHealth : ErrorCode → ConnectorHealth
  | .authenticationFailed => .authFailed
  | .credentialUnavailable => .authFailed
  | .rateLimited => .rateLimited
  | .networkUnreachable => .unreachable
  | .providerUnavailable => .unreachable
  | _ => .degraded

def syncError (code : ErrorCode) : ErrorEnvelope :=
  match connectorHealth code with
  | .authFailed => safeError "github_auth_failed" "GitHub token was not accepted."
  | .rateLimited =>
      retryableError "github_rate_limited" "GitHub is rate limited. Try again later."
  | .unreachable =>
      retryableError "github_unreachable" "GitHub could not be reached. Try again later."
  | _ => safeError "github_sync_failed" "GitHub synchronization failed."

def sshConnectorHealth : ErrorCode → ConnectorHealth
  | .hostKeyMismatch => .degraded
  | _ => .unreachable

def sshSyncError (code : ErrorCode) : ErrorEnvelope :=
  let code :=
    match code with
    | .hostKeyMismatch => "host_key_mismatch"
    | .networkUnreachable => "network_unreachable"
    | .authenticationFailed => "authentication_failed"
    | .providerUnavailable => "provider_unavailable"
    | .invalidResponse => "invalid_response"
    | .internal => "internal"
    | _ => "ssh_sync_failed"
  safeError code "SSH synchronization failed."

/-! ## §2  What the providers differ in -/

abbrev Secret := List UInt8

/-- Where the credential comes from, with the message when there is none. -/
inductive SecretSource
  | unused
  | stored (message : String)
  /-- The secret store, then the legacy file, which is copied into the store. -/
  | storedOrLegacy (message : String)

structure Provider where
  label : String
  connectorType : ConnectorType
  /-- The config field that must be there, with the message when it is not. -/
  required : Option (String × String)
  scopeText : Connection → String
  secret : SecretSource
  /-- The error of a transport that cannot be built; none is built without it. -/
  transportError : Option (String → ErrorEnvelope)
  /-- The health saved when a run cannot be started or its data not stored. -/
  internalHealth : Option ConnectorHealth
  healthOf : ErrorCode → ConnectorHealth
  failedError : ErrorCode → ErrorEnvelope
  normalizer : Normalizer

/-- What the function is given and what the outside world answers. -/
structure SyncEnv where
  trigger : SyncTrigger
  syncRunId : SyncRunId
  digest : Value → Fingerprint
  /-- The two readings of the clock. -/
  startedAt : Option Timestamp
  finishedAt : Option Timestamp
  legacySecret : Option Secret
  transport : Except String Unit
  connector : SyncRequest → Option Secret → Except ConnectorFailure SyncOutcome

/-- The end of a sync function: save the connection, if any, and return. -/
structure Return where
  result : Except ErrorEnvelope Unit
  connection : Option Connection

/-- What is known once the request and the credential are there. -/
structure Prepared where
  connection : Connection
  startedAt : Timestamp
  request : SyncRequest
  secret : Option Secret
  /-- The legacy credential to copy into the secret store. -/
  backfill : Option Secret

def configText (config : Value) (field : String) : Option String :=
  match config.get field with
  | some (.string text) => some text
  | _ => none

namespace Provider

variable (p : Provider) (env : SyncEnv)

def couldNotStart : ErrorEnvelope :=
  safeError "sync_unavailable" (p.label ++ " synchronization could not start.")

def couldNotFinish : ErrorEnvelope :=
  safeError "sync_unavailable" (p.label ++ " synchronization could not finish.")

/-- The data could not be saved: the connection is saved as unhealthy where the
provider does so. -/
def couldNotSave (connection : Connection) : Return where
  result := .error (safeError "sync_unavailable" (p.label ++ " data could not be saved."))
  connection := p.internalHealth.map fun health => { connection with health := health }

/-! ## §3  The steps -/

/-- The connection after the attempt is noted, with the time it was. -/
def attempt (connection : Connection) (s : Store) :
    Except Return (Connection × Timestamp) × Store :=
  match env.startedAt with
  | none => (.error { result := .error p.couldNotStart, connection := none }, s)
  | some startedAt =>
      let connection := { connection with lastAttemptAt := some startedAt }
      (.ok (connection, startedAt), s.upsertConnection connection)

def request (connection : Connection) (scope : Scope) : SyncRequest where
  syncRunId := env.syncRunId
  connection :=
    { connectionId := connection.connectionId
      connectorType := p.connectorType
      config := connection.config
      configSchemaVersion := .one }
  mode := .full
  scope := scope
  cursor := none
  targetedResources := []

/-- The credential, and the one to copy into the store; reads only. -/
def credential (connection : Connection) (s : Store) :
    Except Return (Option Secret × Option Secret) :=
  let unavailable (message : String) (connection : Option Connection) : Return :=
    { result := .error (safeError "credential_unavailable" message), connection := connection }
  match p.secret with
  | .unused => .ok (none, none)
  | .stored message =>
      match s.connectionSecret connection.connectionId with
      | some secret => .ok (some secret, none)
      | none => .error (unavailable message none)
  | .storedOrLegacy message =>
      match s.connectionSecret connection.connectionId with
      | some secret => .ok (some secret, none)
      | none =>
          match env.legacySecret with
          | some secret => .ok (some secret, some secret)
          | none => .error (unavailable message (some { connection with health := .authFailed }))

def requireConfig (connection : Connection) : Except Return Unit :=
  match p.required with
  | none => .ok ()
  | some (field, message) =>
      match configText connection.config field with
      | some _ => .ok ()
      | none =>
          .error { result := .error (safeError "sync_unavailable" message), connection := none }

def scopeOf (connection : Connection) : Except Return Scope :=
  match StringValue.new (p.scopeText connection) with
  | .ok scope => .ok scope
  | .error _ => .error { result := .error p.couldNotStart, connection := none }

def buildTransport : Except Return Unit :=
  match p.transportError, env.transport with
  | some unreachable, .error message =>
      .error { result := .error (unreachable message), connection := none }
  | _, _ => .ok ()

/-- From the noted attempt to the engine: reads only. -/
def prepare (connection : Connection) (startedAt : Timestamp) (s : Store) :
    Except Return Prepared := do
  p.requireConfig connection
  let scope ← p.scopeOf connection
  let (secret, backfill) ← p.credential env connection s
  p.buildTransport env
  return {
    connection := connection
    startedAt := startedAt
    request := p.request env connection scope
    secret := secret
    backfill := backfill }

/-- The lazy copy of a legacy credential; its failure is tolerated. -/
def backfill (prepared : Prepared) (s : Store) : Store :=
  match prepared.backfill with
  | none => s
  | some secret =>
      match s.upsertConnectionSecret prepared.connection.connectionId secret with
      | .ok s' => s'
      | .error _ => s

def runStart (prepared : Prepared) : SyncRunStart where
  syncRunId := env.syncRunId
  mode := .full
  trigger := env.trigger
  scope := prepared.request.scope
  startedAt := prepared.startedAt
  targetedResources := []

def start (prepared : Prepared) (s : Store) : Except Return SyncRunHandle × Store :=
  match SyncEngine.start (.new s) prepared.connection.connectionId (runStart env prepared) with
  | (.ok handle, engine) => (.ok handle, engine.store)
  | ((.error _ : Except (SyncEngineError StoreError) SyncRunHandle), engine) =>
      (.error
        { result := .error p.couldNotStart
          connection := p.internalHealth.map fun health =>
            { prepared.connection with health := health } },
        engine.store)

/-- What an answer with data makes of the connection, and of its health once the
data is stored. -/
def observed (connection : Connection) (finishedAt : Timestamp) (outcome : SyncOutcome) :
    Connection × ConnectorHealth :=
  match outcome with
  | .partial_ _ _ => (connection, .degraded)
  | .complete _ => ({ connection with lastSuccessAt := some finishedAt }, .healthy)

/-- The connector's answer ends the run; each of the returns that do not is one
where the run stays as it is. -/
def settle (prepared : Prepared) (handle : SyncRunHandle) (s : Store) : Return × Store :=
  match env.finishedAt with
  | none => ({ result := .error p.couldNotFinish, connection := none }, s)
  | some finishedAt =>
      match env.connector prepared.request prepared.secret with
      | .ok outcome =>
          let (connection, health) := observed prepared.connection finishedAt outcome
          match p.normalizer.normalize env.digest prepared.request outcome.batch with
          | .error _ =>
              let error : DomainError :=
                { code := .internal
                  message := p.label ++ " data normalization failed."
                  retryable := false }
              let (_, engine) : Except (SyncEngineError StoreError) CommitResult × _ :=
                SyncEngine.fail (.new s) handle error finishedAt
              (p.couldNotSave connection, engine.store)
          | .ok normalized =>
              match SyncEngine.commit (.new s) handle normalized finishedAt with
              | (.ok _, engine) =>
                  ({ result := .ok (), connection := some { connection with health := health } },
                    engine.store)
              | ((.error _ : Except (SyncEngineError StoreError) CommitResult), engine) =>
                  -- no `fail` here: the run stays stored as running
                  (p.couldNotSave connection, engine.store)
      | .error failure =>
          let error : DomainError :=
            { code := failure.code
              message := p.label ++ " synchronization failed."
              retryable := failure.retryable }
          match SyncEngine.fail (.new s) handle error finishedAt with
          | (.ok _, engine) =>
              ({ result := .error (p.failedError failure.code)
                 connection :=
                  some { prepared.connection with health := p.healthOf failure.code } },
                engine.store)
          | ((.error _ : Except (SyncEngineError StoreError) CommitResult), engine) =>
              ({ result := .error p.couldNotFinish, connection := none }, engine.store)

/-- The last store access of every return. -/
def save (ret : Return) (s : Store) : Store :=
  match ret.connection with
  | some connection => s.upsertConnection connection
  | none => s

/-- Everything up to the connector's call. -/
def begin_ (connection : Connection) (s : Store) :
    Except Return (Prepared × SyncRunHandle) × Store :=
  match p.attempt env connection s with
  | (.error ret, s) => (.error ret, s)
  | (.ok (connection, startedAt), s) =>
      match p.prepare env connection startedAt s with
      | .error ret => (.error ret, s)
      | .ok prepared =>
          match p.start env prepared (backfill prepared s) with
          | (.error ret, s) => (.error ret, s)
          | (.ok handle, s) => (.ok (prepared, handle), s)

/-- Everything after the connector's call. -/
def finish (prepared : Prepared) (handle : SyncRunHandle) (s : Store) :
    Except ErrorEnvelope Unit × Store :=
  let (ret, s) := p.settle env prepared handle s
  (ret.result, save ret s)

/-- The whole function, undisturbed. -/
def sync (connection : Connection) (s : Store) : Except ErrorEnvelope Unit × Store :=
  match p.begin_ env connection s with
  | (.error ret, s) => (ret.result, save ret s)
  | (.ok (prepared, handle), s) => p.finish env prepared handle s

end Provider

/-! ## §4  The seven functions -/

def regionOf (connection : Connection) : String :=
  (configText connection.config "region").getD "unknown"

def githubProvider : Provider where
  label := "GitHub"
  connectorType := .github
  required := none
  scopeText := fun connection => "github:" ++ connection.connectionId.val
  secret := .storedOrLegacy "GitHub token is unavailable from local storage."
  transportError := none
  internalHealth := some (connectorHealth .internal)
  healthOf := connectorHealth
  failedError := syncError
  normalizer := githubNormalizer

def sshProvider : Provider where
  label := "SSH"
  connectorType := .ssh
  required := none
  scopeText := fun connection => "ssh:" ++ connection.connectionId.val
  secret := .unused
  transportError := none
  internalHealth := some (sshConnectorHealth .internal)
  healthOf := sshConnectorHealth
  failedError := sshSyncError
  normalizer := sshNormalizer

/-- The arms of the `match failure.code` of the other providers are all one. -/
def unreachableHealth (_ : ErrorCode) : ConnectorHealth := .unreachable

def dokployProvider : Provider where
  label := "Dokploy"
  connectorType := .dokploy
  required := some ("base_url", "Dokploy base_url is missing from connection config.")
  scopeText := fun connection => "dokploy:" ++ connection.connectionId.val
  secret := .stored "Dokploy credential is unavailable from local storage."
  transportError := some (retryableError "dokploy_unreachable")
  internalHealth := none
  healthOf := unreachableHealth
  failedError := fun _ => safeError "dokploy_sync_failed" "Dokploy synchronization failed."
  normalizer := dokployNormalizer

def cloudflareProvider : Provider where
  label := "Cloudflare"
  connectorType := .cloudflare
  required := none
  scopeText := fun connection => "cloudflare:" ++ connection.connectionId.val
  secret := .stored "Cloudflare credential is unavailable from local storage."
  transportError := none
  internalHealth := none
  healthOf := unreachableHealth
  failedError := fun _ => safeError "cloudflare_sync_failed" "Cloudflare synchronization failed."
  normalizer := cloudflareNormalizer

def supabaseManagedProvider : Provider where
  label := "Supabase managed"
  connectorType := .supabaseManaged
  required := none
  scopeText := fun connection => "supabase-managed:" ++ connection.connectionId.val
  secret := .stored "Supabase managed credential is unavailable."
  transportError := some fun _ =>
    retryableError "supabase_managed_unreachable" "Supabase managed transport is unavailable."
  internalHealth := none
  healthOf := unreachableHealth
  failedError := fun _ =>
    safeError "supabase_managed_sync_failed" "Supabase managed synchronization failed."
  normalizer := supabaseManagedNormalizer

def aliyunProvider : Provider where
  label := "Aliyun"
  connectorType := .aliyun
  required := none
  scopeText := fun connection => "aliyun:" ++ regionOf connection
  secret := .stored "Aliyun credential is unavailable."
  transportError := some fun _ =>
    retryableError "aliyun_unreachable" "Aliyun transport is unavailable."
  internalHealth := none
  healthOf := unreachableHealth
  failedError := fun _ => safeError "aliyun_sync_failed" "Aliyun synchronization failed."
  normalizer := aliyunNormalizer

def tencentProvider : Provider where
  label := "Tencent"
  connectorType := .tencent
  required := none
  scopeText := fun connection => "tencent:" ++ regionOf connection
  secret := .stored "Tencent credential is unavailable."
  transportError := some fun _ =>
    retryableError "tencent_unreachable" "Tencent transport is unavailable."
  internalHealth := none
  healthOf := unreachableHealth
  failedError := fun _ => safeError "tencent_sync_failed" "Tencent synchronization failed."
  normalizer := tencentNormalizer

def syncGithub : SyncEnv → Connection → Store → Except ErrorEnvelope Unit × Store :=
  githubProvider.sync

def syncSsh : SyncEnv → Connection → Store → Except ErrorEnvelope Unit × Store :=
  sshProvider.sync

def syncDokploy : SyncEnv → Connection → Store → Except ErrorEnvelope Unit × Store :=
  dokployProvider.sync

def syncCloudflare : SyncEnv → Connection → Store → Except ErrorEnvelope Unit × Store :=
  cloudflareProvider.sync

def syncSupabaseManaged : SyncEnv → Connection → Store → Except ErrorEnvelope Unit × Store :=
  supabaseManagedProvider.sync

def syncAliyun : SyncEnv → Connection → Store → Except ErrorEnvelope Unit × Store :=
  aliyunProvider.sync

def syncTencent : SyncEnv → Connection → Store → Except ErrorEnvelope Unit × Store :=
  tencentProvider.sync

end NextInfra
