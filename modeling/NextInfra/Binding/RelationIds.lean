import NextInfra.Binding.Invariant
import NextInfra.Store.Authors

/-!
# Relation ids of bindings

A configured relation has the id `binding-relation:{binding}:{source}:{target}:{kind}`.
A drawn binding id has a fixed length and a kind holds no colon, so the id gives
both back. Between source and target there is no such border: an id with a
colon can lend a part of its text to the other one (`ShiftedLink`).
-/

namespace NextInfra

/-! ## §1  What an id determines -/

namespace Binding

/-- The text `{source}:{target}`. -/
def linkText (b : Binding) : List Char :=
  b.sourceResourceId.val.toList ++ ':' :: b.targetResourceId.val.toList

theorem relationId_toList (b : Binding) :
    b.relationId.val.toList =
      "binding-relation:".toList ++
        (b.bindingId.val.toList ++ ':' :: (b.linkText ++ ':' :: b.kind.val.toList)) := by
  unfold relationId linkText
  simp only [String.toList_append, List.append_assoc]
  rfl

theorem relationId_startsWith (b : Binding) : b.relationId.startsWith 'b' := by
  unfold StringValue.startsWith
  rw [relationId_toList]
  rfl

end Binding

theorem bindingRelationVersionId_startsWith (id : RelationId) (at_ : Timestamp) :
    (bindingRelationVersionId id at_).startsWith 'b' := by
  unfold bindingRelationVersionId StringValue.startsWith
  rw [@stamped_toList _ _ "binding-relation-version" ⟨'b', _, rfl, by decide⟩ id at_]
  rfl

theorem bindingIdOf_toList (uuid : Uuid) :
    (bindingIdOf uuid).val.toList = "binding:v1:".toList ++ uuid.text.toList := by
  unfold bindingIdOf
  rw [String.toList_append]

theorem bindingIdOf_length (uuid : Uuid) : (bindingIdOf uuid).val.toList.length = 47 := by
  rw [bindingIdOf_toList, List.length_append, uuid.hyphenated.1]
  rfl

/-- The relation id of a drawn binding determines the binding, the kind and the
joined text of the endpoints. -/
theorem Binding.relationId_eq_iff {a b : Binding} {u v : Uuid}
    (ha : a.bindingId = bindingIdOf u) (hb : b.bindingId = bindingIdOf v) :
    a.relationId = b.relationId ↔
      a.bindingId = b.bindingId ∧ a.kind = b.kind ∧ a.linkText = b.linkText := by
  constructor
  · intro h
    have hlist := congrArg (fun id => id.val.toList) h
    simp only [relationId_toList] at hlist
    have htail := List.append_cancel_left hlist
    -- both binding ids take 47 characters
    have hlength : a.bindingId.val.toList.length = b.bindingId.val.toList.length := by
      rw [ha, hb, bindingIdOf_length, bindingIdOf_length]
    obtain ⟨hid, hrest⟩ := List.append_inj htail hlength
    rw [List.cons.injEq] at hrest
    refine ⟨StringValue.ext_val (String.toList_inj.mp hid), ?_⟩
    -- no kind holds a colon, so none reaches over the last one
    rcases Separated.split_shifted hrest.2 with ⟨hlink, hkind⟩ | ⟨mid, _, hkind⟩ | ⟨mid, _, hkind⟩
    · exact ⟨NamespacedValue.ext_val (String.toList_inj.mp hkind), hlink⟩
    · exact absurd (by rw [hkind]; simp) a.kind.colon_not_mem
    · exact absurd (by rw [hkind]; simp) b.kind.colon_not_mem
  · rintro ⟨hid, hkind, hlink⟩
    apply StringValue.ext_val
    apply String.toList_inj.mp
    rw [relationId_toList, relationId_toList, hid, hkind, hlink]

/-- The two pairs of endpoints differ and read `{source}:{target}` alike: text moves
from one id to the other. -/
def ShiftedLink (source target source' target' : ResourceId) : Prop :=
  Separated.Shifted ':' source.val.toList target.val.toList source'.val.toList
      target'.val.toList ∨
    Separated.Shifted ':' source'.val.toList target'.val.toList source.val.toList
      target.val.toList

theorem shiftedLink_iff {a b : Binding} :
    ShiftedLink a.sourceResourceId a.targetResourceId b.sourceResourceId b.targetResourceId ↔
      a.linkText = b.linkText ∧
        ¬ (a.sourceResourceId = b.sourceResourceId ∧ a.targetResourceId = b.targetResourceId) := by
  constructor
  · rintro (h | h)
    · refine ⟨h.join_eq, ?_⟩
      rintro ⟨hsource, _⟩
      exact h.ne (congrArg (fun id => id.val.toList) hsource)
    · refine ⟨h.join_eq.symm, ?_⟩
      rintro ⟨hsource, _⟩
      exact h.ne (congrArg (fun id => id.val.toList) hsource.symm)
  · rintro ⟨htext, hne⟩
    refine (Separated.join_pair_eq_iff ?_).mp htext
    intro hpair
    rw [Prod.mk.injEq] at hpair
    apply hne
    exact ⟨StringValue.ext_val (String.toList_inj.mp hpair.1),
      StringValue.ext_val (String.toList_inj.mp hpair.2)⟩

theorem Binding.evidenceKey_eq_iff {a b : Binding} :
    a.evidenceKey = b.evidenceKey ↔ a.bindingId = b.bindingId := by
  constructor
  · intro h
    have hval : ("binding:" ++ a.bindingId.val).toList = ("binding:" ++ b.bindingId.val).toList := by
      rw [show "binding:" ++ a.bindingId.val = "binding:" ++ b.bindingId.val from
        congrArg StringValue.val h]
    rw [String.toList_append, String.toList_append] at hval
    exact StringValue.ext_val (String.toList_inj.mp (List.append_cancel_left hval))
  · intro h
    unfold evidenceKey
    simp only [h]

/-! ## §2  Configured relations -/

/-- `x` is the configured relation of `b`; its times and lifecycle may be any. -/
structure Relation.Configures (x : Relation) (b : Binding) : Prop where
  relationId : x.relationId = b.relationId
  source : x.sourceResourceId = b.sourceResourceId
  target : x.targetResourceId = b.targetResourceId
  kind : x.kind = b.kind
  evidence : x.evidence = .configured b.bindingId
  evidenceKey : x.evidenceKey = b.evidenceKey

theorem Binding.configuredRelation_configures (b : Binding) (lifecycle : Lifecycle)
    (at_ : Timestamp) : (b.configuredRelation lifecycle at_).Configures b :=
  ⟨rfl, rfl, rfl, rfl, rfl, rfl⟩

namespace Relation.Configures

variable {x y : Relation} {a b : Binding}

/-- A carried `first_seen_at` leaves the rest alone. -/
theorem carried (h : x.Configures b) (old : Relation) :
    (Store.relationRule.carry old x).Configures b :=
  ⟨h.relationId, h.source, h.target, h.kind, h.evidence, h.evidenceKey⟩

theorem lands (h : x.Configures b) (hy : Store.relationRule.Lands x y) : y.Configures b := by
  rcases hy with rfl | ⟨old, rfl⟩
  · exact h
  · exact h.carried old

theorem evidenceType (h : x.Configures b) : x.evidence.evidenceType = .configured := by
  rw [h.evidence]
  rfl

/-- Relations of two bindings have one key iff the bindings share id and link. -/
theorem key_eq_iff (hx : x.Configures a) (hy : y.Configures b) :
    x.key = y.key ↔ a.bindingId = b.bindingId ∧ a.SameLink b := by
  rw [Store.relation_key_eq_iff, hx.source, hx.target, hx.kind, hx.evidenceType, hx.evidenceKey,
    hy.source, hy.target, hy.kind, hy.evidenceType, hy.evidenceKey, Binding.evidenceKey_eq_iff]
  unfold Binding.SameLink
  tauto

/-- Relations of two bindings with one key have one id. -/
theorem relationId_of_key (hx : x.Configures a) (hy : y.Configures b) (h : x.key = y.key) :
    x.relationId = y.relationId := by
  obtain ⟨hid, hsource, htarget, hkind⟩ := (hx.key_eq_iff hy).mp h
  rw [hx.relationId, hy.relationId]
  unfold Binding.relationId
  simp only [hid, hsource, htarget, hkind]

end Relation.Configures

/-- Relations of two drawn bindings meet at one id under different keys iff the
bindings share id and kind and one link shifts into the other. -/
theorem Relation.Configures.conflict_iff {x y : Relation} {a b : Binding} {u v : Uuid}
    (hx : x.Configures a) (hy : y.Configures b) (ha : a.bindingId = bindingIdOf u)
    (hb : b.bindingId = bindingIdOf v) :
    x.relationId = y.relationId ∧ x.key ≠ y.key ↔
      x.evidence = y.evidence ∧ x.kind = y.kind ∧
        ShiftedLink x.sourceResourceId x.targetResourceId y.sourceResourceId
          y.targetResourceId := by
  rw [hx.relationId, hy.relationId, Binding.relationId_eq_iff ha hb, ne_eq, hx.key_eq_iff hy,
    hx.evidence, hy.evidence, hx.kind, hy.kind, hx.source, hx.target, hy.source, hy.target,
    shiftedLink_iff, RelationEvidence.configured.injEq]
  unfold Binding.SameLink
  tauto

end NextInfra
