import NextInfra.Lib.Runs
import NextInfra.Binding.Service
import NextInfra.Store.Revision
import NextInfra.Sync.Queue

/-!
# Bindings over any run

The binding service beside every other writer of the store: between two
operations any write may succeed or fail, so endpoints appear, change lifecycle
and vanish with a purged connection. A UUID is drawn once (`uuid::Uuid::new_v4`).

`WellBound` is what every operation keeps. `Advances` is what happens to one
binding between two moments of a run: nothing, or a later `updated_at`; a row
that a purge removed never comes back.
-/

namespace NextInfra

/-! ## §1  The machine -/

structure BindingWorld where
  store : Store
  drawn : List Uuid

namespace BindingWorld

def fresh : BindingWorld where
  store := Store.fresh
  drawn := []

inductive Call
  | service (call : BindingCall)
  | other (write : Write)

/-- Writes of the store that are no binding commits. -/
def isOther : Write → Bool
  | .commitBinding _ => false
  | _ => true

section

variable (digest : Value → Fingerprint)

/-- The store an operation leaves. -/
def served (s : Store) (call : BindingCall) : Store :=
  ((call.run digest s : Except (BindingError StoreError) (Binding × Store)).toOption.map
    Prod.snd).getD s

def step (w : BindingWorld) : Call → BindingWorld
  | .service call => { store := served digest w.store call, drawn := call.drawn ++ w.drawn }
  | .other write => { w with store := w.store.written write }

/-- A UUID is not drawn twice. -/
def enabled (w : BindingWorld) : Call → Prop
  | .service call => ∀ uuid ∈ call.drawn, uuid ∉ w.drawn
  | .other write => isOther write = true

instance (w : BindingWorld) (call : Call) : Decidable (w.enabled call) := by
  cases call <;> unfold enabled <;> infer_instance

def machine : Machine BindingWorld Call where
  enabled := enabled
  step := step digest

instance (w : BindingWorld) (call : Call) : Decidable ((machine digest).enabled w call) :=
  inferInstanceAs (Decidable (w.enabled call))

end

end BindingWorld

/-! ## §2  Binding ids -/

theorem bindingIdOf_injective : Function.Injective bindingIdOf := by
  intro a b h
  have hval : ("binding:v1:" ++ a.text).toList = ("binding:v1:" ++ b.text).toList := by
    rw [show "binding:v1:" ++ a.text = "binding:v1:" ++ b.text from congrArg StringValue.val h]
  rw [String.toList_append, String.toList_append] at hval
  have htext := String.toList_inj.mp (List.append_cancel_left hval)
  cases a
  cases b
  cases htext
  rfl

/-! ## §3  One step -/

/-- Two bindings link the same endpoints in the same kind. -/
def Binding.SameLink (a b : Binding) : Prop :=
  a.sourceResourceId = b.sourceResourceId ∧ a.targetResourceId = b.targetResourceId ∧
    a.kind = b.kind

instance (a b : Binding) : Decidable (a.SameLink b) := by
  unfold Binding.SameLink; infer_instance

/-- What the service keeps of the bindings table. -/
structure Store.WellBound (s : Store) : Prop where
  unique : ∀ a ∈ s.bindings.rows, ∀ b ∈ s.bindings.rows, a.status ≠ .disabled →
    b.status ≠ .disabled → a.SameLink b → a = b
  distinct : ∀ b ∈ s.bindings.rows, b.sourceResourceId ≠ b.targetResourceId

/-- Untouched, or changed at a later time; created when it was. -/
def Binding.Advances (old new : Binding) : Prop :=
  new.createdAt = old.createdAt ∧ (new = old ∨ old.updatedAt < new.updatedAt)

theorem Binding.Advances.trans {a b c : Binding} (h : a.Advances b) (h' : b.Advances c) :
    a.Advances c := by
  obtain ⟨hcreated, hchange⟩ := h
  obtain ⟨hcreated', hchange'⟩ := h'
  refine ⟨hcreated'.trans hcreated, ?_⟩
  rcases hchange' with rfl | hlater'
  · exact hchange
  · rcases hchange with rfl | hlater
    · exact Or.inr hlater'
    · exact Or.inr (lt_trans hlater hlater')

/-- A binding commit puts one row: the commit's, with the `created_at` already
stored. -/
theorem BindingEffect.bindings {s s' : Store} {c : BindingCommit} (h : BindingEffect s c s')
    (hcreated : ∀ old, s.bindings.get c.binding.bindingId = some old →
      old.createdAt = c.binding.createdAt) :
    s'.bindings = s.bindings.put c.binding := by
  rw [h.eq]
  show s.bindings.put (Store.bindingRule.row s.bindings c.binding) = _
  unfold UpsertRule.row
  cases hold : s.bindings.get c.binding.bindingId with
  | none => rfl
  | some old =>
      have hsame := hcreated old hold
      show s.bindings.put { c.binding with createdAt := old.createdAt } = _
      rw [hsame]

namespace BindingStep

variable {digest : Value → Fingerprint} {s s' : Store} {call : BindingCall} {b : Binding}

/-- What a step does to the table: nothing, or it puts the binding it returns,
which is new or advances the stored row. -/
theorem bindings (h : BindingStep digest s call b s')
    (hfresh : ∀ uuid ∈ call.drawn, s.bindings.get (bindingIdOf uuid) = none) :
    s'.bindings = s.bindings ∨
      s'.bindings = s.bindings.put b ∧
        ((∃ uuid ∈ call.drawn, b.bindingId = bindingIdOf uuid) ∨
          ∃ existing, s.bindings.get b.bindingId = some existing ∧ existing.Advances b) := by
  cases h with
  | kept _ => exact Or.inl rfl
  | @created input at_ uuid _ _ distinct free row effect =>
      right
      have hid : b.bindingId = bindingIdOf uuid := by rw [row]
      have hnone : s.bindings.get b.bindingId = none := by
        rw [hid]
        exact hfresh uuid (List.mem_singleton.mpr rfl)
      refine ⟨effect.bindings ?_, Or.inl ⟨uuid, List.mem_singleton.mpr rfl, hid⟩⟩
      intro old hold
      have hold' : s.bindings.get b.bindingId = some old := hold
      rw [hnone] at hold'
      cases hold'
  | @moved id input at_ existing _ status _ distinct stored later free row effect =>
      right
      have hid : b.bindingId = id := by
        rw [row]
        exact (KeyedTable.key_of_get stored : existing.bindingId = id)
      have hcreated : b.createdAt = existing.createdAt := by rw [row]; rfl
      have hupdated : b.updatedAt = at_ := by rw [row]; rfl
      refine ⟨effect.bindings ?_, Or.inr ⟨existing, by rw [hid, stored], hcreated, Or.inr ?_⟩⟩
      · intro old hold
        have hold' : s.bindings.get b.bindingId = some old := hold
        rw [hid, stored] at hold'
        cases hold'
        exact hcreated.symm
      · rw [hupdated]
        exact later
  | @restated _ at_ existing _ status _ stored enabled later row effect =>
      right
      have hid : b.bindingId = existing.bindingId := by rw [row]
      have hcreated : b.createdAt = existing.createdAt := by rw [row]
      have hupdated : b.updatedAt = at_ := by rw [row]
      refine ⟨effect.bindings ?_, Or.inr ⟨existing, by rw [hid, stored], hcreated, Or.inr ?_⟩⟩
      · intro old hold
        have hold' : s.bindings.get b.bindingId = some old := hold
        rw [hid, stored] at hold'
        cases hold'
        exact hcreated.symm
      · rw [hupdated]
        exact later

/-- The binding a step puts is no self-link, and clashes with no other enabled
binding. -/
theorem free (h : BindingStep digest s call b s') (hs : s.WellBound) :
    b.sourceResourceId ≠ b.targetResourceId ∧
      (b.status ≠ .disabled → ∀ other ∈ s.bindings.rows, other.bindingId ≠ b.bindingId →
        other.status ≠ .disabled → ¬ other.SameLink b) := by
  have hclash : ∀ {input : BindingInput} {excluded : Option BindingId} {other : Binding},
      BindingService.clashes input excluded other = false → excluded ≠ some other.bindingId →
        other.status ≠ .disabled →
        ¬ (other.sourceResourceId = input.sourceResourceId ∧
          other.targetResourceId = input.targetResourceId ∧ other.kind = input.kind) := by
    rintro input excluded other hfalse hexcluded hstatus ⟨hsource, htarget, hkind⟩
    simp [BindingService.clashes, hexcluded, hstatus, hsource, htarget, hkind] at hfalse
  cases h with
  | kept stored =>
      have hmem := KeyedTable.mem_of_get stored
      refine ⟨hs.distinct b hmem, ?_⟩
      intro hstatus other hother hne hother_status hlink
      exact hne (congrArg Binding.bindingId
        (hs.unique other hother b hmem hother_status hstatus hlink))
  | @created input at_ uuid _ _ distinct free row effect =>
      subst row
      refine ⟨distinct, ?_⟩
      intro _ other hother _ hother_status hlink
      exact hclash (free other hother) (by simp) hother_status hlink
  | @moved id input at_ existing _ status _ distinct stored later free row effect =>
      subst row
      refine ⟨distinct, ?_⟩
      intro hstatus other hother hne hother_status hlink
      rcases free with ⟨_, hdisabled⟩ | ⟨_, _, hfree⟩
      · exact hstatus hdisabled
      · refine hclash (hfree other hother) ?_ hother_status hlink
        intro hid
        apply hne
        rw [Option.some.injEq] at hid
        rw [← hid]
        exact (KeyedTable.key_of_get stored).symm
  | @restated _ at_ existing _ status _ stored enabled later row effect =>
      subst row
      have hmem := KeyedTable.mem_of_get stored
      refine ⟨hs.distinct existing hmem, ?_⟩
      intro _ other hother hne hother_status hlink
      have hsame := hs.unique other hother existing hmem hother_status enabled hlink
      exact hne (by rw [hsame])

/-- Every operation keeps the table well-bound. -/
theorem wellBound (h : BindingStep digest s call b s') (hs : s.WellBound)
    (hfresh : ∀ uuid ∈ call.drawn, s.bindings.get (bindingIdOf uuid) = none) :
    s'.WellBound := by
  obtain ⟨hdistinct, hfree⟩ := h.free hs
  rcases h.bindings hfresh with hsame | ⟨hput, _⟩
  · constructor
    · rw [hsame]
      exact hs.unique
    · rw [hsame]
      exact hs.distinct
  · constructor
    · intro x hx y hy hxs hys hlink
      rw [hput] at hx hy
      rcases KeyedTable.mem_put.mp hx with hxb | ⟨hxold, hxid⟩
      · rcases KeyedTable.mem_put.mp hy with hyb | ⟨hyold, hyid⟩
        · rw [hxb, hyb]
        · rw [hxb] at hxs hlink
          exact absurd ⟨hlink.1.symm, hlink.2.1.symm, hlink.2.2.symm⟩
            (hfree hxs y hyold hyid hys)
      · rcases KeyedTable.mem_put.mp hy with hyb | ⟨hyold, _⟩
        · rw [hyb] at hys hlink
          exact absurd hlink (hfree hys x hxold hxid hxs)
        · exact hs.unique x hxold y hyold hxs hys hlink
    · intro x hx
      rw [hput] at hx
      rcases KeyedTable.mem_put.mp hx with rfl | ⟨hx, _⟩
      · exact hdistinct
      · exact hs.distinct x hx

end BindingStep

/-! ## §4  Other writers -/

/-- A write that is no binding commit only removes bindings. -/
theorem Write.bindings_of_other {s s' : Store} {write : Write}
    (hother : BindingWorld.isOther write = true) (h : write.run s = .ok s') :
    ∀ b ∈ s'.bindings.rows, b ∈ s.bindings.rows := by
  intro b hb
  cases Write.effect h with
  | quiet same =>
      rw [same.bindings] at hb
      exact hb
  | sync effect =>
      rw [effect.bindings] at hb
      exact hb
  | binding _ => cases hother
  | inference effect =>
      obtain ⟨outputs, rfl⟩ := effect.eq
      exact hb
  | purge => exact (KeyedTable.mem_keep.mp hb).1

theorem Store.WellBound.of_subset {s s' : Store} (h : s.WellBound)
    (hsub : ∀ b ∈ s'.bindings.rows, b ∈ s.bindings.rows) : s'.WellBound where
  unique := fun a ha b hb => h.unique a (hsub a ha) b (hsub b hb)
  distinct := fun b hb => h.distinct b (hsub b hb)

namespace BindingWorld

variable {digest : Value → Fingerprint}

theorem served_cases (s : Store) (call : BindingCall) :
    served digest s call = s ∨ ∃ b, BindingStep digest s call b (served digest s call) := by
  unfold served
  cases hrun : (call.run digest s : Except (BindingError StoreError) (Binding × Store)) with
  | error e => exact Or.inl rfl
  | ok p =>
      obtain ⟨b, s'⟩ := p
      exact Or.inr ⟨b, BindingService.step_of_ok hrun⟩

/-! ## §5  Runs -/

/-- The table is well-bound and every binding has a drawn id. -/
structure Sound (w : BindingWorld) : Prop where
  bound : w.store.WellBound
  drawn : ∀ b ∈ w.store.bindings.rows, ∃ uuid ∈ w.drawn, b.bindingId = bindingIdOf uuid

theorem sound_fresh : fresh.Sound where
  bound :=
    { unique := by
        intro a ha
        cases ha
      distinct := by
        intro b hb
        cases hb }
  drawn := by
    intro b hb
    cases hb

/-- An id not drawn yet is not stored. -/
theorem Sound.fresh_id {w : BindingWorld} (h : w.Sound) {uuid : Uuid} (hnot : uuid ∉ w.drawn) :
    w.store.bindings.get (bindingIdOf uuid) = none := by
  rw [KeyedTable.get_eq_none_iff]
  intro b hb hid
  obtain ⟨drawnUuid, hmem, hdrawn⟩ := h.drawn b hb
  have hsame := bindingIdOf_injective (hid.symm.trans hdrawn)
  rw [hsame] at hnot
  exact hnot hmem

/-- Between two moments every id drawn at the first keeps its row, advances it,
or loses it for good. -/
def Later (w w' : BindingWorld) : Prop :=
  (∀ uuid ∈ w.drawn, uuid ∈ w'.drawn) ∧
    ∀ uuid ∈ w.drawn, ∀ b', w'.store.bindings.get (bindingIdOf uuid) = some b' →
      ∃ b, w.store.bindings.get (bindingIdOf uuid) = some b ∧ b.Advances b'

theorem Later.refl (w : BindingWorld) : w.Later w :=
  ⟨fun _ h => h, fun _ _ b hb => ⟨b, hb, rfl, Or.inl rfl⟩⟩

theorem Later.trans {w w' w'' : BindingWorld} (h : w.Later w') (h' : w'.Later w'') :
    w.Later w'' := by
  refine ⟨fun uuid hu => h'.1 uuid (h.1 uuid hu), ?_⟩
  intro uuid hu b'' hb''
  obtain ⟨b', hb', hadv'⟩ := h'.2 uuid (h.1 uuid hu) b'' hb''
  obtain ⟨b, hb, hadv⟩ := h.2 uuid hu b' hb'
  exact ⟨b, hb, hadv.trans hadv'⟩

/-- A table that only loses rows is a later one. -/
theorem later_of_subset {w : BindingWorld} {store : Store}
    (hsub : ∀ b ∈ store.bindings.rows, b ∈ w.store.bindings.rows) (drawn : List Uuid)
    (hdrawn : ∀ uuid ∈ w.drawn, uuid ∈ drawn) : w.Later { store := store, drawn := drawn } := by
  refine ⟨hdrawn, ?_⟩
  intro uuid _ b hb
  obtain ⟨hmem, hid⟩ := KeyedTable.get_eq_some_iff.mp hb
  exact ⟨b, KeyedTable.get_eq_some_iff.mpr ⟨hsub b hmem, hid⟩, rfl, Or.inl rfl⟩

/-- One step keeps the invariant and moves to a later moment. -/
theorem step_sound {w : BindingWorld} {call : Call} (hen : w.enabled call) (hs : w.Sound) :
    (w.step digest call).Sound ∧ w.Later (w.step digest call) := by
  cases call with
  | other write =>
      show Sound { w with store := w.store.written write } ∧
        w.Later { w with store := w.store.written write }
      have hsub : ∀ b ∈ (w.store.written write).bindings.rows, b ∈ w.store.bindings.rows := by
        rcases w.store.written_cases write with hsame | hrun
        · rw [hsame]
          exact fun b hb => hb
        · exact Write.bindings_of_other hen hrun
      refine ⟨⟨hs.bound.of_subset hsub, fun b hb => hs.drawn b (hsub b hb)⟩, ?_⟩
      exact later_of_subset hsub w.drawn fun _ h => h
  | service call =>
      show Sound { store := served digest w.store call, drawn := call.drawn ++ w.drawn } ∧
        w.Later { store := served digest w.store call, drawn := call.drawn ++ w.drawn }
      have hfresh : ∀ uuid ∈ call.drawn, w.store.bindings.get (bindingIdOf uuid) = none :=
        fun uuid hu => hs.fresh_id (hen uuid hu)
      have hgrown : ∀ uuid ∈ w.drawn, uuid ∈ call.drawn ++ w.drawn :=
        fun uuid hu => List.mem_append_right _ hu
      have hquiet : ∀ store : Store, store.bindings = w.store.bindings →
          Sound { store := store, drawn := call.drawn ++ w.drawn } ∧
            w.Later { store := store, drawn := call.drawn ++ w.drawn } := by
        intro store heq
        have hsub : ∀ b ∈ store.bindings.rows, b ∈ w.store.bindings.rows := by
          rw [heq]
          exact fun b hb => hb
        refine ⟨⟨hs.bound.of_subset hsub, ?_⟩, later_of_subset hsub _ hgrown⟩
        intro b hb
        obtain ⟨uuid, hu, hid⟩ := hs.drawn b (hsub b hb)
        exact ⟨uuid, hgrown uuid hu, hid⟩
      rcases @served_cases digest w.store call with hsame | ⟨b, hstep⟩
      · rw [hsame]
        exact hquiet w.store rfl
      generalize served digest w.store call = store at hstep ⊢
      rcases hstep.bindings hfresh with hsame | ⟨hput, horigin⟩
      · exact hquiet store hsame
      -- the row put is new under a fresh id, or advances the row of its id
      refine ⟨⟨hstep.wellBound hs.bound hfresh, ?_⟩, hgrown, ?_⟩
      · intro x hx
        change x ∈ store.bindings.rows at hx
        rw [hput] at hx
        rcases KeyedTable.mem_put.mp hx with rfl | ⟨hx, _⟩
        · rcases horigin with ⟨uuid, hu, hid⟩ | ⟨existing, hget, _⟩
          · exact ⟨uuid, List.mem_append_left _ hu, hid⟩
          · obtain ⟨hmem, hkey⟩ := KeyedTable.get_eq_some_iff.mp hget
            obtain ⟨uuid, hu, hid⟩ := hs.drawn existing hmem
            exact ⟨uuid, hgrown uuid hu, hkey.symm.trans hid⟩
        · obtain ⟨uuid, hu, hid⟩ := hs.drawn x hx
          exact ⟨uuid, hgrown uuid hu, hid⟩
      · intro uuid hu x hx
        change store.bindings.get (bindingIdOf uuid) = some x at hx
        rw [hput, KeyedTable.get_put] at hx
        by_cases hid : bindingIdOf uuid = b.bindingId
        · rw [if_pos hid] at hx
          cases hx
          rcases horigin with ⟨new, hnew, hidnew⟩ | ⟨existing, hget, hadv⟩
          · have hsame := bindingIdOf_injective (hid.trans hidnew)
            rw [hsame] at hu
            exact absurd hu (hen new hnew)
          · rw [hid]
            exact ⟨existing, hget, hadv⟩
        · rw [if_neg hid] at hx
          exact ⟨x, hx, rfl, Or.inl rfl⟩

theorem sound_preserved : (machine digest).Preserves Sound :=
  fun _ _ hen hs => (step_sound hen hs).1

/-- Along every run: no two enabled bindings share a link, no binding links a
resource to itself, and a binding found at two moments was created once and
changed only to a later `updated_at`. -/
theorem bindings_unique_and_advancing {calls calls' : List Call} {w w' : BindingWorld}
    (hrun : (machine digest).Run fresh calls w) (hrun' : (machine digest).Run w calls' w') :
    w.store.WellBound ∧ w'.store.WellBound ∧
      ∀ id b b', w.store.bindings.get id = some b → w'.store.bindings.get id = some b' →
        b'.createdAt = b.createdAt ∧ (b' = b ∨ b.updatedAt < b'.updatedAt) := by
  have hsound := hrun.invariant sound_preserved sound_fresh
  have hsound' := hrun'.invariant sound_preserved hsound
  have hlater : w.Later w' :=
    hrun'.relates sound_preserved Later.refl (fun _ _ _ => Later.trans)
      (fun _ _ hen hs => (step_sound hen hs).2) hsound
  refine ⟨hsound.bound, hsound'.bound, ?_⟩
  intro id b b' hb hb'
  obtain ⟨uuid, hu, hid⟩ := hsound.drawn b (KeyedTable.mem_of_get hb)
  rw [KeyedTable.key_of_get hb] at hid
  rw [hid] at hb hb'
  obtain ⟨b₀, hb₀, hadv⟩ := hlater.2 uuid hu b' hb'
  rw [hb] at hb₀
  cases hb₀
  exact hadv

end BindingWorld

namespace Fixture

def uuid (value : String) : Uuid :=
  if h : value.toList.length = 36 ∧ value.toList.all isUuidChar = true then ⟨value, h⟩
  else ⟨"00000000-0000-0000-0000-000000000000", by decide⟩

def uuidOne : Uuid := uuid "00000000-0000-0000-0000-000000000001"

/-- A resource of connection `a`, seen by run `run`. -/
def resourceRow (run : SyncRunId) (lifecycle : Lifecycle) (id : ResourceId) : Resource where
  resourceId := id
  connectionId := text "a"
  kind := kind "host.vm"
  externalId := text id.val
  name := "vm"
  displayName := "vm"
  scope := text "all"
  labels := .empty
  lifecycle := lifecycle
  health := .healthy
  attributes := .object []
  attributeSchemaVersion := nextSchemaVersion
  fingerprint := text "f"
  firstSeenAt := time 1
  lastSeenAt := time 1
  lastChangedAt := time 1
  lastSyncRunId := run

/-- A run that writes the given resources and nothing else. -/
def resourceWrites (run : SyncRunId) (lifecycle : Lifecycle) (ids : List ResourceId) :
    List Write :=
  let started := (handle (text "a") run .full (text "all")).run
  [.startSyncRun started,
    .commitSync
      { syncRun := { started with status := .succeeded, finishedAt := some (time 2) }
        resources := ids.map (resourceRow run lifecycle)
        resourceVersions := []
        relations := []
        relationVersions := []
        changes := []
        cursorAfter := none
        missingEvidence := none }]

def linkInput (source target : ResourceId) : BindingInput where
  sourceResourceId := source
  targetResourceId := target
  kind := kind "host.uses"

/-- Connection `a` with the given active resources. -/
def endpointCalls (ids : List ResourceId) : List BindingWorld.Call :=
  (Write.upsertConnection (connection (text "a")) :: resourceWrites (text "r1") .active ids).map
    .other

/-- `x` bound to `y` at 10. -/
def boundCalls : List BindingWorld.Call :=
  endpointCalls [text "x", text "y"] ++ [.service (.create (linkInput (text "x") (text "y")) (time 10) uuidOne)]

/-- `y` is tombstoned, and the binding reconciled at 20. -/
def unresolvedCalls : List BindingWorld.Call :=
  (resourceWrites (text "r2") .tombstoned [text "y"]).map .other ++
    [.service (.reconcile (bindingIdOf uuidOne) (time 20))]

def bound : BindingWorld := (BindingWorld.machine fun _ => text "f").replay .fresh boundCalls

def unresolved : BindingWorld := (BindingWorld.machine fun _ => text "f").replay bound unresolvedCalls

end Fixture

namespace BindingWorld

open Fixture in
theorem bindings_unique_and_advancing_unresolved :
    (bound.store.WellBound ∧ unresolved.store.WellBound ∧
      ∀ id b b', bound.store.bindings.get id = some b →
        unresolved.store.bindings.get id = some b' →
          b'.createdAt = b.createdAt ∧ (b' = b ∨ b.updatedAt < b'.updatedAt)) ∧
      (bound.store.bindings.get (bindingIdOf uuidOne)).map Binding.status = some .active ∧
      (unresolved.store.bindings.get (bindingIdOf uuidOne)).map Binding.status =
        some .unresolved :=
  ⟨@bindings_unique_and_advancing (fun _ => text "f") boundCalls unresolvedCalls bound unresolved
    (Machine.run_replay (by decide)) (Machine.run_replay (by decide)), rfl, rfl⟩

end BindingWorld

end NextInfra
