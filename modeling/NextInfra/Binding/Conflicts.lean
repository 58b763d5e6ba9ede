import NextInfra.Binding.History

/-!
# Identity conflicts of binding commits

When does the store refuse, for an identity, what the service let through? The only
rows a binding commit can collide with are configured relations of its own
binding, so the answer concerns one operation: an update to endpoints whose ids,
joined by a colon, read like those of a relation the binding had before
(`Store.Misread`). The relation id is the same text, the endpoints are not.
-/

namespace NextInfra

/-! ## §1  Refused statements -/

/-- A row claims an id or a unique key that belongs to another one. -/
def StoreError.IsIdentityConflict (e : StoreError) : Prop :=
  e = .contract "relation stable identity cannot change" ∨ e = .sqlite .unique ∨
    e = .sqlite .primaryKey

namespace Store

/-- A loop of upserts stops at the first row it may not write. -/
theorem upsertRelations_error {rows : List Relation} {s : Store} {e : StoreError}
    (h : upsertEach upsertRelation s rows = .error e) :
    ∃ before r after, rows = before ++ r :: after ∧
      ({ s with relations := relationRule.applyAll s.relations before } : Store).relationViolation
        r = some e := by
  induction rows generalizing s with
  | nil => cases h
  | cons r rows ih =>
      unfold upsertEach at h
      cases hr : s.upsertRelation r with
      | error e' =>
          simp only [hr] at h
          cases h
          refine ⟨[], r, rows, rfl, ?_⟩
          unfold upsertRelation at hr
          cases hv : s.relationViolation r with
          | none => simp [hv] at hr
          | some e' =>
              simp only [hv] at hr
              cases hr
              exact hv
      | ok s₁ =>
          simp only [hr] at h
          obtain ⟨_, rfl⟩ := upsertRelation_ok hr
          obtain ⟨before, r', after, rfl, hviolation⟩ := ih h
          exact ⟨r :: before, r', after, rfl, hviolation⟩

theorem insertRelationVersions_error {rows : List RelationVersion} {s : Store} {e : StoreError}
    (h : insertEach insertRelationVersion s rows = .error e) : e = .sqlite .foreignKey := by
  induction rows generalizing s with
  | nil => cases h
  | cons v rows ih =>
      unfold insertEach at h
      cases hv : s.insertRelationVersion v with
      | error e' =>
          simp only [hv] at h
          cases h
          unfold insertRelationVersion at hv
          split at hv
          · cases hv
          · split at hv
            · cases hv
              rfl
            · cases hv
      | ok p =>
          simp only [hv] at h
          cases hrest : insertEach insertRelationVersion p.1 rows with
          | error e' =>
              simp only [hrest] at h
              cases h
              exact ih hrest
          | ok q => simp [hrest] at h

/-- A binding commit refused for an identity is refused at one of its relations. -/
theorem commitBinding_conflict {s : Store} {c : BindingCommit} {e : StoreError}
    (h : s.commitBinding c = .error e) (he : e.IsIdentityConflict) :
    (s.resources.get c.binding.sourceResourceId).isSome ∧
      (s.resources.get c.binding.targetResourceId).isSome ∧
      ∃ before r after, c.relations = before ++ r :: after ∧
      ({ s with
          bindings := bindingRule.apply s.bindings c.binding
          relations := relationRule.applyAll s.relations before } : Store).relationViolation r =
        some e := by
  have hforeign : e ≠ .sqlite .foreignKey := by
    rintro rfl
    rcases he with he | he | he <;> cases he
  unfold commitBinding at h
  cases hbinding : s.upsertBinding c.binding with
  | error e' =>
      rw [hbinding] at h
      cases h
      unfold upsertBinding at hbinding
      split at hbinding
      · cases hbinding
        exact absurd rfl hforeign
      · cases hbinding
  | ok s₁ =>
      rw [hbinding] at h
      change (upsertEach upsertRelation s₁ c.relations >>= _) = _ at h
      obtain ⟨hsource, htarget, rfl⟩ := upsertBinding_ok hbinding
      refine ⟨hsource, htarget, ?_⟩
      cases hrelations : upsertEach upsertRelation
          { s with bindings := bindingRule.apply s.bindings c.binding } c.relations with
      | error e' =>
          rw [hrelations] at h
          cases h
          obtain ⟨before, r, after, hrows, hviolation⟩ := upsertRelations_error hrelations
          exact ⟨before, r, after, hrows, hviolation⟩
      | ok s₂ =>
          rw [hrelations] at h
          change (insertEach insertRelationVersion s₂ c.relationVersions >>= _) = _ at h
          cases hversions : insertEach insertRelationVersion s₂ c.relationVersions with
          | error e' =>
              rw [hversions] at h
              cases h
              exact absurd (insertRelationVersions_error hversions) hforeign
          | ok p =>
              rw [hversions] at h
              obtain ⟨n, hchanges⟩ := p.1.insertChanges_total c.changes
              change (insertEach insertChange p.1 c.changes >>= _) = _ at h
              rw [hchanges] at h
              cases h

/-- Rows of one id must agree on the key. -/
theorem relationViolation_of_stored {s : Store} {r x : Relation}
    (hx : s.relations.get r.relationId = some x) :
    s.relationViolation r =
      if x.key = r.key then none
      else some (.contract "relation stable identity cannot change") := by
  unfold relationViolation
  rw [hx]
  simp only
  by_cases hkey : x.key = r.key
  · obtain ⟨hsource, htarget, hkind, htype, hevidence⟩ := relation_key_eq_iff.mp hkey
    rw [if_pos hkey, if_neg]
    simp [hsource, htarget, hkind, htype, hevidence]
  · rw [if_neg hkey, if_pos]
    rw [relation_key_eq_iff] at hkey
    tauto

/-- What a relation refused for an identity met: another row under its id, or its
key under another id. -/
theorem relationViolation_conflict {s : Store} {r : Relation} {e : StoreError}
    (h : s.relationViolation r = some e) (he : e.IsIdentityConflict) :
    (∃ x ∈ s.relations.rows, x.relationId = r.relationId ∧ x.key ≠ r.key) ∨
      ∃ x ∈ s.relations.rows, x.relationId ≠ r.relationId ∧ x.key = r.key := by
  cases hget : s.relations.get r.relationId with
  | some x =>
      left
      obtain ⟨hmem, hid⟩ := KeyedTable.get_eq_some_iff.mp hget
      refine ⟨x, hmem, hid, ?_⟩
      intro hkey
      rw [relationViolation_of_stored hget, if_pos hkey] at h
      cases h
  | none =>
      right
      unfold relationViolation at h
      rw [hget] at h
      simp only at h
      split at h
      · rename_i hany
        obtain ⟨x, hx, hkey⟩ := List.any_eq_true.mp hany
        exact ⟨x, hx, KeyedTable.get_eq_none_iff.mp hget x hx, of_decide_eq_true hkey⟩
      · split at h
        · cases h
          rcases he with he | he | he <;> cases he
        · cases h

end Store

/-! ## §2  What a binding commit can meet -/

section

variable {drawn : List Uuid} {s : Store} {previous : Option Binding} {b : Binding}

/-- A commit about to be made: the id is drawn, for a new binding just now, and the
binding it replaces is represented. -/
structure BindingDue (drawn : List Uuid) (s : Store) (previous : Option Binding) (b : Binding) :
    Prop where
  traced : Traced drawn s
  drew : ∃ uuid, b.bindingId = bindingIdOf uuid ∧ (previous = none → uuid ∉ drawn)
  ofPrevious : ∀ old, previous = some old → old.bindingId = b.bindingId ∧ s.Represents old

/-- A relation of the binding reads like the one `b` projects to. -/
def Store.MisreadAs (s : Store) (b : Binding) : Prop :=
  ∃ x ∈ s.relations.rows, x.evidence = .configured b.bindingId ∧ x.kind = b.kind ∧
    ShiftedLink x.sourceResourceId x.targetResourceId b.sourceResourceId b.targetResourceId

namespace BindingDue

/-- A row of the commit configures `b`, or the binding it replaces. -/
theorem configures {at_ : Timestamp} {r : Relation}
    (hr : r ∈ Binding.commitRelations previous b at_) :
    r.Configures b ∨ ∃ old, previous = some old ∧ r.Configures old := by
  rcases Binding.mem_commitRelations.mp hr with rfl | ⟨old, hold, _, rfl⟩
  · exact Or.inl (b.configuredRelation_configures _ _)
  · exact Or.inr ⟨old, hold, old.configuredRelation_configures _ _⟩

/-- A configured row that meets the present relation at its id is misread. -/
theorem misread_of_stored (h : BindingDue drawn s previous b) {x r : Relation}
    (hx : x ∈ s.relations.rows) (hr : r.Configures b) (hid : x.relationId = r.relationId)
    (hkey : x.key ≠ r.key) : s.MisreadAs b := by
  obtain ⟨uuid, huuid, _⟩ := h.drew
  have htype : x.evidence.evidenceType = .configured := by
    apply EvidenceType.initial_injective
    have hfirst := h.traced.initials x hx
    rw [hid, hr.relationId] at hfirst
    exact StringValue.startsWith_unique hfirst b.relationId_startsWith
  obtain ⟨c, ⟨prior, _, hc⟩, hconfigures⟩ := h.traced.configured x hx htype
  obtain ⟨hevidence, hkind, hshifted⟩ :=
    (hconfigures.conflict_iff hr hc huuid).mp ⟨hid, hkey⟩
  rw [hr.evidence] at hevidence
  rw [hr.kind] at hkind
  rw [hr.source, hr.target] at hshifted
  exact ⟨x, hx, hevidence, hkind, hshifted⟩

/-- The relation stored under the id of the binding that is replaced is its own. -/
theorem stored_previous (h : BindingDue drawn s previous b) {old : Binding}
    (hold : previous = some old) {x : Relation} (hx : x ∈ s.relations.rows)
    (hid : x.relationId = old.relationId) : x.Configures old := by
  obtain ⟨y, hy, hconfigures, _⟩ := (h.ofPrevious old hold).2.current
  rw [s.relations.row_unique hx hy (hid.trans hconfigures.relationId.symm)]
  exact hconfigures

/-- The former link shifts into the present one. -/
theorem misread_of_previous (h : BindingDue drawn s previous b) {old : Binding}
    (hold : previous = some old) {r r' : Relation} (hr : r.Configures old) (hr' : r'.Configures b)
    (hid : r.relationId = r'.relationId) (hkey : r.key ≠ r'.key) : s.MisreadAs b := by
  obtain ⟨uuid, huuid, _⟩ := h.drew
  obtain ⟨holdid, hrepresents⟩ := h.ofPrevious old hold
  obtain ⟨y, hy, hconfigures, _⟩ := hrepresents.current
  obtain ⟨_, hkind, hshifted⟩ :=
    (hr.conflict_iff hr' (holdid.trans huuid) huuid).mp ⟨hid, hkey⟩
  refine ⟨y, hy, ?_, ?_, ?_⟩
  · rw [hconfigures.evidence, holdid]
  · rw [hconfigures.kind, ← hr.kind, hkind, hr'.kind]
  · rw [hconfigures.source, hconfigures.target, ← hr.source, ← hr.target, ← hr'.source,
      ← hr'.target]
    exact hshifted

/-- A commit refused for an identity is a misreading. -/
theorem misread_of_conflict (h : BindingDue drawn s previous b) {digest : Value → Fingerprint}
    {at_ : Timestamp} {e : StoreError}
    (herror : s.commitBinding (Binding.commit digest previous b at_) = .error e)
    (he : e.IsIdentityConflict) : s.MisreadAs b := by
  obtain ⟨_, _, before, r, after, hrows, hviolation⟩ := Store.commitBinding_conflict herror he
  change Binding.commitRelations previous b at_ = before ++ r :: after at hrows
  have hr : r ∈ Binding.commitRelations previous b at_ := by
    rw [hrows]
    exact List.mem_append_right _ List.mem_cons_self
  have hbefore : ∀ r' ∈ before, r' ∈ Binding.commitRelations previous b at_ := by
    intro r' hr'
    rw [hrows]
    exact List.mem_append_left _ hr'
  obtain ⟨uuid, huuid, _⟩ := h.drew
  rcases Store.relationViolation_conflict hviolation he with ⟨x, hx, hid, hkey⟩ | ⟨x, hx, hid, hkey⟩
  · -- another row under the id: stored, or written by the commit itself
    change x ∈ (Store.relationRule.applyAll s.relations before).rows at hx
    rcases Store.relationRule.mem_applyAll hx with hx | ⟨r', hr', hlands⟩
    · rcases configures hr with hconfigures | ⟨old, hold, hconfigures⟩
      · exact h.misread_of_stored hx hconfigures hid hkey
      · have hown := h.stored_previous hold hx (hid.trans hconfigures.relationId)
        exact absurd ((hown.key_eq_iff hconfigures).mpr ⟨rfl, rfl, rfl, rfl⟩) hkey
    · rcases configures (hbefore r' hr') with hx' | ⟨old, hold, hx'⟩
      · rcases configures hr with hconfigures | ⟨old, hold, hconfigures⟩
        · have hown := hx'.lands hlands
          exact absurd ((hown.key_eq_iff hconfigures).mpr ⟨rfl, rfl, rfl, rfl⟩) hkey
        · exact h.misread_of_previous hold hconfigures (hx'.lands hlands) hid.symm
            (fun hsame => hkey hsame.symm)
      · rcases configures hr with hconfigures | ⟨old', hold', hconfigures⟩
        · exact h.misread_of_previous hold (hx'.lands hlands) hconfigures hid hkey
        · rw [hold] at hold'
          cases hold'
          have hown := hx'.lands hlands
          exact absurd ((hown.key_eq_iff hconfigures).mpr ⟨rfl, rfl, rfl, rfl⟩) hkey
  · -- a key determines the id, so no other id can have it
    change x ∈ (Store.relationRule.applyAll s.relations before).rows at hx
    have hr' : ∃ a : Binding, r.Configures a := by
      rcases configures hr with hconfigures | ⟨old, _, hconfigures⟩
      · exact ⟨b, hconfigures⟩
      · exact ⟨old, hconfigures⟩
    obtain ⟨a, ha⟩ := hr'
    have hx' : ∃ c : Binding, x.Configures c := by
      rcases Store.relationRule.mem_applyAll hx with hx | ⟨r', hr', hlands⟩
      · have htype : x.evidence.evidenceType = .configured := by
          rw [(Store.relation_key_eq_iff.mp hkey).2.2.2.1]
          exact ha.evidenceType
        obtain ⟨c, _, hconfigures⟩ := h.traced.configured x hx htype
        exact ⟨c, hconfigures⟩
      · rcases configures (hbefore r' hr') with hconfigures | ⟨old, _, hconfigures⟩
        · exact ⟨b, hconfigures.lands hlands⟩
        · exact ⟨old, hconfigures.lands hlands⟩
    obtain ⟨c, hc⟩ := hx'
    exact absurd (hc.relationId_of_key ha hkey) hid

/-- Under its present link a binding is never misread. -/
theorem not_misread_of_sameLink (h : BindingDue drawn s previous b) {old : Binding}
    (hold : previous = some old) (hlink : old.SameLink b) : ¬ s.MisreadAs b := by
  rintro ⟨x, hx, hevidence, hkind, hshifted⟩
  obtain ⟨uuid, huuid, _⟩ := h.drew
  obtain ⟨holdid, _⟩ := h.ofPrevious old hold
  obtain ⟨hsource, htarget, hsame⟩ := hlink
  have hconfigured := b.configuredRelation_configures .active b.updatedAt
  obtain ⟨c, hc, _, hx'⟩ := h.traced.of_configured hx hevidence
  obtain ⟨hid, _⟩ := (hx'.conflict_iff hconfigured (hc.trans huuid) huuid).mpr
    ⟨hevidence, hkind, hshifted⟩
  have hformer : old.relationId = b.relationId := by
    unfold Binding.relationId
    simp only [holdid, hsource, htarget, hsame]
  -- the row under the id is the binding's present relation, which shifts nowhere
  have hown := h.stored_previous hold hx (hid.trans hformer.symm)
  obtain ⟨_, hne⟩ := shiftedLink_iff.mp (by rw [hx'.source, hx'.target] at hshifted; exact hshifted)
  apply hne
  exact ⟨hx'.source.symm.trans (hown.source.trans hsource),
    hx'.target.symm.trans (hown.target.trans htarget)⟩

/-- A misread update is refused. -/
theorem conflict_of_misread {old : Binding} (h : BindingDue drawn s (some old) b)
    (hmisread : s.MisreadAs b) (hsource : (s.resources.get b.sourceResourceId).isSome)
    (htarget : (s.resources.get b.targetResourceId).isSome) (digest : Value → Fingerprint)
    (at_ : Timestamp) :
    s.commitBinding (Binding.commit digest (some old) b at_) =
      .error (.contract "relation stable identity cannot change") := by
  have hchanged : Binding.identityChanged old b = true := by
    rw [Binding.identityChanged_iff]
    exact fun hlink => h.not_misread_of_sameLink rfl hlink hmisread
  have hrows : (Binding.commit digest (some old) b at_).relations =
      [old.configuredRelation .tombstoned at_,
        b.configuredRelation b.status.relationLifecycle at_] := by
    simp [Binding.commit, Binding.commitRelations, Option.filter, hchanged]
  have hends : ¬ ((s.resources.get b.sourceResourceId).isNone ∨
      (s.resources.get b.targetResourceId).isNone) := by
    rw [Option.isNone_iff_eq_none, Option.isNone_iff_eq_none, not_or]
    exact ⟨Option.isSome_iff_ne_none.mp hsource, Option.isSome_iff_ne_none.mp htarget⟩
  have hbinding : s.upsertBinding (Binding.commit digest (some old) b at_).binding =
      .ok { s with bindings := Store.bindingRule.apply s.bindings b } := by
    unfold Store.upsertBinding
    exact if_neg hends
  generalize hcurrent : b.configuredRelation b.status.relationLifecycle at_ = current at hrows
  generalize hformer : old.configuredRelation .tombstoned at_ = former at hrows
  have hcurrent' : current.Configures b := by
    rw [← hcurrent]
    exact b.configuredRelation_configures _ _
  have hformer' : former.Configures old := by
    rw [← hformer]
    exact old.configuredRelation_configures _ _
  -- the former relation meets its own row
  obtain ⟨y, hy, hown, _⟩ := (h.ofPrevious old rfl).2.current
  have hstored : s.relations.get former.relationId = some y :=
    KeyedTable.get_eq_some_iff.mpr ⟨hy, hown.relationId.trans hformer'.relationId.symm⟩
  have hsamekey : y.key = former.key := (hown.key_eq_iff hformer').mpr ⟨rfl, rfl, rfl, rfl⟩
  have hfits : Store.relationRule.Fits s.relations former := by
    intro other hother
    rw [hstored] at hother
    cases hother
    exact hsamekey
  -- the present one meets the row it reads like, whatever the first write carried over
  obtain ⟨x, hx, hevidence, hkind, hshifted⟩ := hmisread
  obtain ⟨uuid, huuid, _⟩ := h.drew
  obtain ⟨c, hc, _, hx'⟩ := h.traced.of_configured hx hevidence
  obtain ⟨hid, hkey⟩ := (hx'.conflict_iff hcurrent' (hc.trans huuid) huuid).mpr
    ⟨by rw [hevidence, hcurrent'.evidence], by rw [hkind, hcurrent'.kind],
      by rw [hcurrent'.source, hcurrent'.target]; exact hshifted⟩
  obtain ⟨z, hz, hzkey⟩ := Store.relationRule.apply_keeps_ident hfits
    (KeyedTable.get_eq_some_iff.mpr ⟨hx, hid⟩)
  have hzne : z.key ≠ current.key := by
    rw [show z.key = x.key from hzkey]
    exact hkey
  have hrefused : Store.upsertEach Store.upsertRelation
      { s with bindings := Store.bindingRule.apply s.bindings b } [former, current] =
        .error (.contract "relation stable identity cannot change") := by
    unfold Store.upsertEach
    have hfirst : ({ s with bindings := Store.bindingRule.apply s.bindings b } :
        Store).upsertRelation former =
          .ok { s with
            bindings := Store.bindingRule.apply s.bindings b
            relations := Store.relationRule.apply s.relations former } := by
      unfold Store.upsertRelation
      rw [@Store.relationViolation_of_stored
        { s with bindings := Store.bindingRule.apply s.bindings b } former y hstored,
        if_pos hsamekey]
    rw [hfirst]
    simp only
    unfold Store.upsertEach Store.upsertRelation
    rw [@Store.relationViolation_of_stored
      { s with
        bindings := Store.bindingRule.apply s.bindings b
        relations := Store.relationRule.apply s.relations former } current z hz, if_neg hzne]
  unfold Store.commitBinding
  rw [hbinding]
  show (Store.upsertEach Store.upsertRelation
    { s with bindings := Store.bindingRule.apply s.bindings b }
    (Binding.commit digest (some old) b at_).relations >>= _) = _
  rw [hrows, hrefused]
  rfl

end BindingDue

end

/-! ## §3  Operations that are refused -/

/-- What `update` checks before it commits. -/
structure Store.AdmitsUpdate (s : Store) (id : BindingId) (input : BindingInput)
    (at_ : Timestamp) (existing : Binding) : Prop where
  distinct : input.sourceResourceId ≠ input.targetResourceId
  stored : s.bindings.get id = some existing
  later : existing.updatedAt < at_
  free : existing.status = .disabled ∨ s.FreeFor input (some id)

/-- An update that passes the checks, between stored resources, to endpoints that
read like those of a relation of the binding but are not. -/
def Store.Misread (s : Store) : BindingCall → Prop
  | .update id input at_ =>
      (∃ existing, s.AdmitsUpdate id input at_ existing) ∧
        (s.getResource input.sourceResourceId).isSome ∧
          (s.getResource input.targetResourceId).isSome ∧
            ∃ x ∈ s.relations.rows, x.evidence = .configured id ∧ x.kind = input.kind ∧
              ShiftedLink x.sourceResourceId x.targetResourceId input.sourceResourceId
                input.targetResourceId
  | _ => False

namespace BindingService

variable {digest : Value → Fingerprint} {s : Store}

theorem save_error {previous : Option Binding} {b : Binding} {at_ : Timestamp} {e : StoreError}
    (h : (save digest s previous b at_ : Except (BindingError StoreError) (Binding × Store)) =
      .error (.store e)) :
    s.commitBinding (Binding.commit digest previous b at_) = .error e := by
  unfold save at h
  rcases bind_error h with h | ⟨_, _, h⟩
  · change (s.commitBinding (Binding.commit digest previous b at_)).mapError BindingError.store = _
      at h
    cases hc : s.commitBinding (Binding.commit digest previous b at_) with
    | error e' =>
        rw [hc] at h
        cases h
        rfl
    | ok t =>
        rw [hc] at h
        cases h
  · cases h

theorem validateInput_store {input : BindingInput} {e : StoreError} :
    (validateInput input : Except (BindingError StoreError) Unit) ≠ .error (.store e) := by
  unfold validateInput
  split <;> simp

theorem ensureLater_store {at_ previous : Timestamp} {e : StoreError} :
    (ensureLater at_ previous : Except (BindingError StoreError) Unit) ≠ .error (.store e) := by
  unfold ensureLater
  split <;> simp

theorem binding_store {id : BindingId} {e : StoreError} :
    (binding s id : Except (BindingError StoreError) Binding) ≠ .error (.store e) := by
  change requireFound (s.bindings.get id) ≠ _
  cases s.bindings.get id <;> simp [requireFound]

theorem ensureUnique_store {input : BindingInput} {excluded : Option BindingId} {e : StoreError} :
    (ensureUnique s input excluded : Except (BindingError StoreError) Unit) ≠
      .error (.store e) := by
  have hread : (ensureUnique s input excluded : Except (BindingError StoreError) Unit) =
      if s.bindings.rows.any (clashes input excluded) then .error .duplicate else .ok () := rfl
  rw [hread]
  split <;> simp

/-- An operation the store refuses has passed the service's checks. -/
theorem refused_cases {call : BindingCall} {e : StoreError}
    (h : (call.run digest s : Except (BindingError StoreError) (Binding × Store)) =
      .error (.store e)) :
    (∃ b at_ uuid, uuid ∈ call.drawn ∧ b.bindingId = bindingIdOf uuid ∧
        s.commitBinding (Binding.commit digest none b at_) = .error e) ∨
      (∃ id input at_ existing status, call = .update id input at_ ∧
        s.AdmitsUpdate id input at_ existing ∧
          s.commitBinding (Binding.commit digest (some existing)
            (updated existing input status at_) at_) = .error e) ∨
      ∃ existing b at_, s.bindings.get existing.bindingId = some existing ∧
        b.bindingId = existing.bindingId ∧ existing.SameLink b ∧
          s.commitBinding (Binding.commit digest (some existing) b at_) = .error e := by
  cases call with
  | create input at_ uuid =>
      left
      change create digest s input at_ uuid = _ at h
      unfold create at h
      rcases bind_error h with h | ⟨_, _, h⟩
      · exact absurd h validateInput_store
      rcases bind_error h with h | ⟨_, _, h⟩
      · exact absurd h ensureUnique_store
      rw [endpointStatus_eq] at h
      exact ⟨_, at_, uuid, List.mem_singleton.mpr rfl, rfl, save_error h⟩
  | update id input at_ =>
      right
      left
      change update digest s id input at_ = _ at h
      unfold update at h
      rcases bind_error h with h | ⟨_, hvalid, h⟩
      · exact absurd h validateInput_store
      rcases bind_error h with h | ⟨existing, hexisting, h⟩
      · exact absurd h binding_store
      rcases bind_error h with h | ⟨_, hlater, h⟩
      · exact absurd h ensureLater_store
      rcases bind_error h with h | ⟨_, hunique, h⟩
      · unfold ensureUpdateUnique at h
        split at h
        · cases h
        · exact absurd h ensureUnique_store
      rcases bind_error h with h | ⟨status, _, h⟩
      · unfold updatedStatus at h
        split at h
        · cases h
        · rw [endpointStatus_eq] at h
          cases h
      split at h
      · cases h
      · have hstored := binding_ok hexisting
        refine ⟨id, input, at_, existing, status, rfl, ⟨validateInput_ok hvalid, hstored,
          ensureLater_ok hlater, ?_⟩, save_error h⟩
        unfold ensureUpdateUnique at hunique
        by_cases hdisabled : existing.status = .disabled
        · exact Or.inl hdisabled
        · rw [if_neg hdisabled, KeyedTable.key_of_get hstored] at hunique
          exact Or.inr (ensureUnique_ok hunique)
  | disable id at_ =>
      right
      right
      change disable digest s id at_ = _ at h
      unfold disable at h
      rcases bind_error h with h | ⟨existing, hexisting, h⟩
      · exact absurd h binding_store
      have hstored := binding_ok hexisting
      rw [← KeyedTable.key_of_get hstored] at hstored
      split at h
      · cases h
      · rcases bind_error h with h | ⟨_, _, h⟩
        · exact absurd h ensureLater_store
        exact ⟨existing, { existing with status := .disabled, updatedAt := at_ }, at_, hstored,
          rfl, ⟨rfl, rfl, rfl⟩, save_error h⟩
  | reconcile id at_ =>
      right
      right
      change reconcile digest s id at_ = _ at h
      unfold reconcile at h
      rcases bind_error h with h | ⟨existing, hexisting, h⟩
      · exact absurd h binding_store
      have hstored := binding_ok hexisting
      rw [← KeyedTable.key_of_get hstored] at hstored
      split at h
      · cases h
      · rcases bind_error h with h | ⟨status, _, h⟩
        · rw [endpointStatus_eq] at h
          cases h
        split at h
        · cases h
        · rcases bind_error h with h | ⟨_, _, h⟩
          · exact absurd h ensureLater_store
          exact ⟨existing, { existing with status := status, updatedAt := at_ }, at_, hstored,
            rfl, ⟨rfl, rfl, rfl⟩, save_error h⟩

/-- An admitted update hands its commit to the store. -/
theorem update_of_admits {id : BindingId} {input : BindingInput} {at_ : Timestamp}
    {existing : Binding} (h : s.AdmitsUpdate id input at_ existing) :
    ∃ status, (update digest s id input at_ :
        Except (BindingError StoreError) (Binding × Store)) =
      save digest s (some existing) (updated existing input status at_) at_ := by
  have hvalid : (validateInput input : Except (BindingError StoreError) Unit) = .ok () := by
    unfold validateInput
    rw [if_neg h.distinct]
  have hfound : (binding s id : Except (BindingError StoreError) Binding) = .ok existing := by
    change requireFound (s.bindings.get id) = _
    rw [h.stored]
    rfl
  have hlater : (ensureLater at_ existing.updatedAt : Except (BindingError StoreError) Unit) =
      .ok () := by
    unfold ensureLater
    rw [if_neg (not_le.mpr h.later)]
  have hunique : (ensureUpdateUnique s existing input : Except (BindingError StoreError) Unit) =
      .ok () := by
    unfold ensureUpdateUnique
    by_cases hdisabled : existing.status = .disabled
    · rw [if_pos hdisabled]
    · rw [if_neg hdisabled, KeyedTable.key_of_get h.stored]
      change (if s.bindings.rows.any (clashes input (some id)) then _ else _) = _
      rw [if_neg]
      intro hany
      obtain ⟨b, hb, hclash⟩ := List.any_eq_true.mp hany
      rcases h.free with hfree | hfree
      · exact hdisabled hfree
      · rw [hfree b hb] at hclash
        cases hclash
  obtain ⟨status, hstatus⟩ : ∃ status, (updatedStatus s existing input :
      Except (BindingError StoreError) BindingStatus) = .ok status := by
    unfold updatedStatus
    split
    · exact ⟨_, rfl⟩
    · exact ⟨_, rfl⟩
  have hmoved : updated existing input status at_ ≠ existing := by
    intro hsame
    have hlt := h.later
    rw [← congrArg Binding.updatedAt hsame] at hlt
    exact lt_irrefl _ hlt
  refine ⟨status, ?_⟩
  unfold update
  rw [hvalid]
  show (binding s id >>= _) = _
  rw [hfound]
  show (ensureLater at_ existing.updatedAt >>= _) = _
  rw [hlater]
  show (ensureUpdateUnique s existing input >>= _) = _
  rw [hunique]
  show (updatedStatus s existing input >>= _) = _
  rw [hstatus]
  exact if_neg hmoved

end BindingService

end NextInfra
