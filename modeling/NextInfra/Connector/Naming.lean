import NextInfra.Connector.Mapping
import NextInfra.Core.LocalRelation

/-!
# Names built from what a provider says

The connectors put a kind, or another text of their own, and a colon before the id a
provider gives. The front is never padded, so it is the end of the id that decides.
-/

namespace NextInfra

/-- No blank ends the text; the empty text is one of these. -/
def Unpadded (s : String) : Prop := ∀ c ∈ s.toList.getLast?, isWhitespace c = false

instance (s : String) : Decidable (Unpadded s) :=
  decidable_of_iff (s.toList.getLast?.all (!isWhitespace ·) = true) <| by
    unfold Unpadded
    cases s.toList.getLast? <;> simp

theorem EndsVisible.unpadded {s : String} (h : EndsVisible s) : Unpadded s := by
  obtain ⟨init, d, hs, hd⟩ := h
  intro c hc
  rw [hs, List.getLast?_concat] at hc
  cases hc
  exact hd

/-- After a front and a colon the text ends visibly unless a blank ends it. -/
theorem endsVisible_named_iff {front id : String} :
    EndsVisible (front ++ ":" ++ id) ↔ Unpadded id := by
  have hlist : (front ++ ":" ++ id).toList = front.toList ++ ':' :: id.toList := by
    rw [String.toList_append, String.toList_append, List.append_assoc]
    rfl
  constructor
  · rintro ⟨init, d, hd, hvisible⟩ c hc
    obtain ⟨before, hid⟩ := List.getLast?_eq_some_iff.mp hc
    have hlast : (front ++ ":" ++ id).toList.getLast? = some c := by
      rw [hlist, hid, ← List.cons_append, ← List.append_assoc, List.getLast?_concat]
    rw [hd, List.getLast?_concat] at hlast
    cases hlast
    exact hvisible
  · intro h
    rcases List.eq_nil_or_concat' id.toList with hnil | ⟨init, d, hid⟩
    · exact ⟨front.toList, ':', by rw [hlist, hnil], by decide⟩
    · refine ⟨front.toList ++ ':' :: init, d, by rw [hlist, hid]; simp, ?_⟩
      apply h
      rw [hid, List.getLast?_concat]
      rfl

/-- A front that starts visibly, a colon and an id make a name unless a blank ends the id. -/
theorem trimmed_named_iff {front id : String} (hfront : StartsVisible front) :
    Trimmed (front ++ ":" ++ id) ↔ Unpadded id := by
  rw [← @endsVisible_named_iff front]
  constructor
  · exact fun h => h.last_visible
  · intro h
    have hnone : "" ++ ":" ++ id = ":" ++ id := by rw [String.empty_append]
    have htail : EndsVisible (":" ++ id) :=
      hnone ▸ endsVisible_named_iff.mpr (endsVisible_named_iff.mp h)
    rw [String.append_assoc]
    exact trimmed_of_visible hfront htail

theorem StringValue.new_ok {name value : String} (h : Trimmed value) :
    (StringValue.new value : Except DomainError (StringValue name)) = .ok ⟨value, h⟩ := by
  unfold StringValue.new
  rw [dif_pos h]

theorem StringValue.new_ok_iff {name value : String} :
    (∃ v, (StringValue.new value : Except DomainError (StringValue name)) = .ok v) ↔
      Trimmed value := by
  constructor
  · rintro ⟨v, hv⟩
    unfold StringValue.new at hv
    split at hv
    · assumption
    · cases hv
  · intro h
    exact ⟨_, StringValue.new_ok h⟩

/-- The text of a value that can be made. -/
theorem StringValue.new_val_eq {name value : String} {v : StringValue name}
    (h : StringValue.new value = .ok v) : v.val = value := by
  unfold StringValue.new at h
  split at h
  · cases h
    rfl
  · cases h

/-- `ExternalId::new` of a kind and an id. -/
theorem named_iff {name id : String} (kind : ResourceKind) :
    ((StringValue.new (kind.val ++ ":" ++ id) : Except DomainError (StringValue name)).toOption).isSome
      = true ↔ Unpadded id := by
  rw [← trimmed_named_iff kind.startsVisible, ← StringValue.new_ok_iff, Option.isSome_iff_exists]
  exact exists_congr fun v => toOption_eq_some_iff

/-- The evidence of a relation can always be named. -/
theorem evidence_named (front : String) (hfront : StartsVisible front) (id : ExternalId) :
    ∃ key : EvidenceKey, StringValue.new (front ++ ":" ++ id.val) = .ok key := by
  apply StringValue.new_ok_iff.mpr
  apply (trimmed_named_iff hfront).mpr
  exact EndsVisible.unpadded id.trimmed.last_visible

/-- A kind has no colon, so a name tells its kind and its id. -/
theorem named_injective {kind kind' : ResourceKind} {id id' : String}
    (h : kind.val ++ ":" ++ id = kind'.val ++ ":" ++ id') : kind = kind' ∧ id = id' := by
  have hfree : ∀ k : ResourceKind, ∀ c ∈ k.val.toList, c ≠ ':' := by
    rintro k c hmem rfl
    rcases IsNamespaced.chars k.namespaced hmem with htoken | hdot
    · exact absurd htoken (by decide)
    · exact absurd hdot (by decide)
  have hcons : ∀ k : ResourceKind, ∀ id, (k.val ++ ":" ++ id).toList =
      k.val.toList ++ ':' :: id.toList := by
    intro k id
    rw [String.toList_append, String.toList_append, List.append_assoc]
    rfl
  have htake : ∀ k : ResourceKind, ∀ id,
      (k.val ++ ":" ++ id).toList.takeWhile (fun c => c ≠ ':') = k.val.toList := by
    intro k id
    rw [hcons, List.takeWhile_append_of_pos fun c hc => decide_eq_true (hfree k c hc),
      List.takeWhile_cons_of_neg (by decide), List.append_nil]
  have hkind : kind = kind' := by
    apply NamespacedValue.ext_val
    apply String.toList_injective
    rw [← htake kind id, h, htake kind' id']
  subst hkind
  have hlist := congrArg String.toList h
  rw [hcons, hcons] at hlist
  exact ⟨rfl, String.toList_injective (List.cons.inj (List.append_cancel_left hlist)).2⟩

/-! ## Resources -/

/-- The ids and names a mapper takes. -/
structure Nameable (id displayName : String) : Prop where
  idSome : id ≠ ""
  displayNameSome : displayName ≠ ""
  idSize : id.utf8ByteSize ≤ 512
  displayNameSize : displayName.utf8ByteSize ≤ 1024
  unpadded : Unpadded id

/-- What a mapped resource is made of. -/
structure Mapping.Makes (mapping : Mapping) (mapped : MappedKind) (id shown : String)
    (fields : Value) (r : ResourceObservation) : Prop where
  kind : r.kind = mapped.kind
  externalId : r.externalId.val = mapped.kind.val ++ ":" ++ id
  name : r.name = id
  displayName : r.displayName = shown
  labels : r.labels = OrderedMap.insert KeyedTable.empty mapping.labelKey mapped.label
  attributes : r.attributes = fields
  version : r.attributeSchemaVersion = .one

theorem external_ok_iff {kind : ResourceKind} {id : String} :
    (∃ externalId, external kind.val id = .ok externalId) ↔ Unpadded id := by
  rw [← trimmed_named_iff kind.startsVisible, ← @StringValue.new_ok_iff "ExternalId"]
  unfold external
  cases (StringValue.new (kind.val ++ ":" ++ id) : Except DomainError ExternalId) with
  | error e => exact iff_of_false (fun ⟨_, h⟩ => by cases h) (fun ⟨_, h⟩ => by cases h)
  | ok externalId => exact iff_of_true ⟨externalId, rfl⟩ ⟨externalId, rfl⟩

theorem external_val {kind id : String} {externalId : ExternalId}
    (h : external kind id = .ok externalId) : externalId.val = kind ++ ":" ++ id := by
  unfold external at h
  split at h
  · rename_i hnew
    cases h
    exact StringValue.new_val_eq hnew
  · cases h

section

variable {mapping : Mapping} {ctx : Context} {kind : MappedKind} {id displayName : String}
  {attributes : Value}

theorem Mapping.resource_makes {r : ResourceObservation}
    (h : mapping.resource ctx kind id displayName attributes = .ok r) :
    mapping.Makes kind id displayName attributes r := by
  unfold Mapping.resource at h
  split at h
  · cases h
  obtain ⟨externalId, hexternal, h⟩ := bind_ok h
  cases h
  exact ⟨rfl, external_val hexternal, rfl, rfl, rfl, rfl, rfl⟩

theorem Mapping.resource_isOk_iff :
    (∃ r, mapping.resource ctx kind id displayName attributes = .ok r) ↔
      Nameable id displayName := by
  unfold Mapping.resource
  by_cases hrefused : id = "" ∨ displayName = "" ∨ 512 < id.utf8ByteSize ∨
      1024 < displayName.utf8ByteSize
  · rw [if_pos hrefused]
    constructor
    · rintro ⟨_, h⟩
      cases h
    · intro h
      rcases hrefused with hid | hname | hsize | hsize
      · exact absurd hid h.idSome
      · exact absurd hname h.displayNameSome
      · exact absurd h.idSize (Nat.not_le.mpr hsize)
      · exact absurd h.displayNameSize (Nat.not_le.mpr hsize)
  · rw [if_neg hrefused]
    push Not at hrefused
    obtain ⟨hid, hname, hidSize, hnameSize⟩ := hrefused
    constructor
    · rintro ⟨_, h⟩
      obtain ⟨externalId, hexternal, _⟩ := bind_ok h
      exact ⟨hid, hname, hidSize, hnameSize, external_ok_iff.mp ⟨externalId, hexternal⟩⟩
    · intro h
      obtain ⟨externalId, hexternal⟩ := (@external_ok_iff kind.kind id).mpr h.unpadded
      rw [hexternal]
      exact ⟨_, rfl⟩

end

end NextInfra
