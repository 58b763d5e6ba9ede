import NextInfra.Cloud.Relations
import NextInfra.Cloud.Requests
import NextInfra.Supabase.Managed

/-!
# Panics of the three connectors that relate by an unchecked id

Aliyun, Tencent and managed Supabase unwrap the name of a parent they build from an id
they did not check. Nothing else in their syncs can panic, so each returns exactly when
no id it comes to is padded at its end; at Tencent the walk of the records has to end too.
-/

namespace NextInfra

namespace Cloud

/-! ## §1  One sync -/

section

variable {ρ : Type} {p : Provider ρ} {transport : Transport ρ}

/-- What was gathered is returned, unless a parent is padded. A failure that is returned bare
leaves no resource behind, so then there is none to relate. -/
theorem finish_returns_iff (hevidence : StartsVisible p.mapper.evidence) {gathered : Gathered}
    {request : SyncRequest} :
    (∃ result, p.finish gathered request = .returned result) ↔
      p.mapper.ParentsUnpadded gathered.resources := by
  rw [← parentsUnpadded_sorted, ← providerRelations_isSome_iff hevidence]
  unfold Provider.finish
  cases hbare : p.bareFailure gathered with
  | some f =>
      refine iff_of_true ⟨_, rfl⟩ ?_
      have hempty : gathered.resources = [] := by
        unfold Provider.bareFailure at hbare
        have hkept := (Option.filter_eq_some_iff.mp hbare).2
        exact List.isEmpty_iff.mp ((Bool.and_eq_true _ _).mp hkept).1
      unfold Gathered.sorted
      rw [hempty]
      rfl
  | none =>
      dsimp only
      cases p.mapper.providerRelations gathered.sorted with
      | none =>
          constructor
          · rintro ⟨_, h⟩
            cases h
          · intro h
            cases h
      | some relations =>
          refine iff_of_true ?_ rfl
          dsimp only
          split
          · exact ⟨_, rfl⟩
          · exact ⟨_, rfl⟩

/-- Watched for so many turns, a sync returns when the modules are read within them and no
parent is padded. -/
theorem sync_returns_iff (hevidence : StartsVisible p.mapper.evidence) {turns : Nat}
    {request : SyncRequest} {secret : Option (List UInt8)} :
    (∃ result, p.sync transport turns request secret = .returned result) ↔
      ∀ session, p.Begins request secret session →
        ∃ gathered next,
          p.fetchAll transport session turns p.modules 0 ⟨[], none⟩ = some (gathered, next) ∧
            p.mapper.ParentsUnpadded gathered.resources := by
  by_cases hbegins : ∃ session, p.Begins request secret session
  · obtain ⟨session, hsession⟩ := hbegins
    rw [sync_of_begins hsession]
    cases hfetch : p.fetchAll transport session turns p.modules 0 ⟨[], none⟩ with
    | none =>
        constructor
        · rintro ⟨_, h⟩
          cases h
        · intro h
          obtain ⟨gathered, next, hgathered, _⟩ := h session hsession
          rw [hfetch] at hgathered
          cases hgathered
    | some result =>
        obtain ⟨gathered, next⟩ := result
        dsimp only
        rw [finish_returns_iff hevidence]
        constructor
        · intro h session' hsession'
          obtain rfl := hsession'.unique hsession
          exact ⟨gathered, next, hfetch, h⟩
        · intro h
          obtain ⟨gathered', next', hgathered, hunpadded⟩ := h session hsession
          rw [hfetch] at hgathered
          cases hgathered
          exact hunpadded
  · obtain ⟨f, hf⟩ := @sync_of_not_begins _ p transport turns _ _ hbegins
    rw [hf]
    exact iff_of_true ⟨_, rfl⟩ fun session h => absurd ⟨session, h⟩ hbegins

/-! ## §2  What the provider answers -/

/-- Where the items of one of the first pages of a module are all observed, the parents they name
can be named. -/
def Provider.PagesUnpadded (p : Provider ρ) (transport : Transport ρ) (session : Session)
    (m : Module) (number pages : Nat) : Prop :=
  (p.mapper.parentOf m.kind).isSome = true → ∀ page < pages, ∀ items total,
    (p.moduleList session m).answerAt transport number page = .ok (items, total) →
    (∀ item ∈ items, ∃ r, p.observe session m.kind item = .ok r) →
    ∀ item ∈ items, ∀ id ∈ item.parentId, Unpadded id

/-- From a request on, module by module: the walks end, and no parent that is read is padded. -/
inductive Provider.Harmless (p : Provider ρ) (transport : Transport ρ) (session : Session) :
    List Module → (number : Nat) → Prop
  | done {number : Nat} : Harmless p transport session [] number
  | module {m : Module} {modules : List Module} {number pages : Nat} (hother : m.module ≠ p.dns)
      (hover : (moduleWalk transport (p.moduleList session m) (p.moduleObserving session m)
        number).Over pages)
      (hparents : p.PagesUnpadded transport session m number pages)
      (hrest : Harmless p transport session modules
        ((p.moduleList session m).startOf transport number pages)) :
      Harmless p transport session (m :: modules) number
  | dns {m : Module} {modules : List Module} {number walked last : Nat}
      {resources : List ResourceObservation} (hdns : m.module = p.dns)
      (hwalks : DnsWalks transport (p.domainList session) (p.recordList session)
        (p.recordObserving session) p.limited number walked last resources)
      (hrest : Harmless p transport session modules last) :
      Harmless p transport session (m :: modules) number

theorem moduleWalk_unpadded_iff {session : Session} {m : Module} {number pages : Nat} :
    p.mapper.ParentsUnpadded ((moduleWalk transport (p.moduleList session m)
        (p.moduleObserving session m) number).kept pages) ↔
      p.PagesUnpadded transport session m number pages := by
  constructor
  · intro h hchild page hlt items total hanswer hobserved item hitem id hid
    obtain ⟨r, hr⟩ := hobserved item hitem
    obtain ⟨hkind, hparent⟩ := Mapper.map_ok hr
    have hkept : r ∈ (moduleWalk transport (p.moduleList session m) (p.moduleObserving session m)
        number).kept pages :=
      Walk.mem_kept_iff.mpr (.inr ⟨page, hlt, items, total, hanswer,
        Observing.mem_allOf_iff.mpr ⟨hobserved, item, hitem, hr⟩⟩)
    exact h r hkept (hkind.symm ▸ hchild) id (hparent.trans hid)
  · intro h r hr hchild id hid
    rcases Walk.mem_kept_iff.mp hr with hnone | ⟨page, hlt, items, total, hanswer, hkept⟩
    · cases hnone
    · obtain ⟨hobserved, item, hitem, hr⟩ := Observing.mem_allOf_iff.mp hkept
      obtain ⟨hkind, hparent⟩ := Mapper.map_ok hr
      exact h (hkind ▸ hchild) page hlt items total hanswer hobserved item hitem id
        (hparent.symm.trans hid)

/-- What is kept of the records is of their kind, and has no parent. -/
theorem recordWalks_unpadded {session : Session} {domains : List String} {number walked last : Nat}
    {before resources : List ResourceObservation}
    (hnone : p.mapper.parentOf p.dnsKind = none)
    (h : RecordWalks transport (p.recordList session) (p.recordObserving session) p.limited domains
      number before walked last resources)
    (hbefore : p.mapper.ParentsUnpadded before) : p.mapper.ParentsUnpadded resources := by
  induction h with
  | done => exact hbefore
  | enough _ => exact hbefore
  | walk _ _ _ ih =>
      refine ih fun r hr hchild => ?_
      rcases Walk.mem_kept_iff.mp hr with hr | ⟨page, _, items, total, _, hkept⟩
      · exact hbefore r hr hchild
      · obtain ⟨item, hobs⟩ := Observing.observed_of_upToRefused hkept
        rw [(Mapper.map_ok hobs).1, hnone] at hchild
        cases hchild

theorem dnsWalks_unpadded {session : Session} {number walked last : Nat}
    {resources : List ResourceObservation} (hnone : p.mapper.parentOf p.dnsKind = none)
    (h : DnsWalks transport (p.domainList session) (p.recordList session)
      (p.recordObserving session) p.limited number walked last resources) :
    p.mapper.ParentsUnpadded resources := by
  have hempty : p.mapper.ParentsUnpadded [] := fun r hr => by cases hr
  cases h with
  | unlisted _ _ => exact hempty
  | listed _ _ hrest => exact recordWalks_unpadded hnone hrest hempty

/-- What is gathered can be related exactly where the answers are harmless. -/
theorem fetchAll_unpadded_iff (hnone : p.mapper.parentOf p.dnsKind = none) {session : Session}
    {turns : Nat} (hlimited : p.limited = true → turns = maxPagesPerModule)
    {modules : List Module} {number next : Nat} {gathered gathered' : Gathered}
    (h : p.fetchAll transport session turns modules number gathered = some (gathered', next)) :
    p.mapper.ParentsUnpadded gathered'.resources ↔
      p.mapper.ParentsUnpadded gathered.resources ∧
        p.Harmless transport session modules number := by
  induction modules generalizing number gathered with
  | nil =>
      cases h
      exact ⟨fun h => ⟨h, .done⟩, And.left⟩
  | cons m modules ih =>
      unfold Provider.fetchAll at h
      obtain ⟨⟨fetch, following⟩, hfetch, h⟩ := Option.bind_eq_some_iff.mp h
      rw [ih h, parentsUnpadded_append, and_assoc, and_congr_right_iff]
      intro _
      unfold Provider.fetch at hfetch
      split at hfetch
      · rename_i hdns
        have hwalks := fetchDns_walks hlimited hfetch
        constructor
        · rintro ⟨_, hrest⟩
          exact .dns hdns hwalks hrest
        · intro hharmless
          cases hharmless with
          | module hother _ _ _ => exact absurd hdns hother
          | dns _ hwalks' hrest =>
              obtain ⟨_, rfl, _⟩ := hwalks.unique hwalks'
              exact ⟨dnsWalks_unpadded hnone hwalks, hrest⟩
      · rename_i hother
        obtain ⟨pages, failure, hover, hwalk⟩ :=
          @fetchModule_walks _ transport (p.moduleList session m) (p.moduleObserving session m)
            number
        rw [hwalk] at hfetch
        cases hfetch
        rw [moduleWalk_unpadded_iff]
        constructor
        · rintro ⟨hparents, hrest⟩
          exact .module hother hover hparents hrest
        · intro hharmless
          cases hharmless with
          | dns hdns _ _ => exact absurd hdns hother
          | module _ hover' hparents hrest =>
              obtain rfl := hover.unique hover'
              exact ⟨hparents, hrest⟩

/-- Where the answers are harmless, the modules are read with turns enough. -/
theorem fetchAll_returns (hlimited : p.limited = false) {session : Session} {modules : List Module}
    {number : Nat} (h : p.Harmless transport session modules number) :
    ∃ bound, ∀ turns, bound ≤ turns → ∀ gathered, ∃ result,
      p.fetchAll transport session turns modules number gathered = some result := by
  induction h with
  | done => exact ⟨0, fun _ _ _ => ⟨_, rfl⟩⟩
  | @module m modules number pages hother hover _ _ ih =>
      obtain ⟨bound, hbound⟩ := ih
      refine ⟨bound, fun turns hturns gathered => ?_⟩
      obtain ⟨pages', failure, hover', hwalk⟩ :=
        @fetchModule_walks _ transport (p.moduleList session m) (p.moduleObserving session m)
          number
      obtain rfl := hover.unique hover'
      have hfetch : p.fetch transport session turns m number = some _ :=
        (if_neg hother).trans (congrArg some hwalk)
      obtain ⟨result, hresult⟩ := hbound turns hturns
        ⟨gathered.resources ++ _, failure.or gathered.error⟩
      exact ⟨result, Option.bind_eq_some_iff.mpr ⟨_, hfetch, hresult⟩⟩
  | @dns m modules number walked last resources hdns hwalks _ ih =>
      obtain ⟨bound, hbound⟩ := ih
      rw [hlimited] at hwalks
      obtain ⟨bound', hbound'⟩ := fetchDns_returns hwalks
      refine ⟨max bound bound', fun turns hturns gathered => ?_⟩
      obtain ⟨⟨fetch, next⟩, hdnsFetch⟩ := hbound' turns (by omega)
      obtain ⟨_, rfl, _⟩ := hwalks.unique (fetchDns_walks (fun h => by cases h) hdnsFetch)
      have hfetch : p.fetch transport session turns m number = some (fetch, last) := by
        unfold Provider.fetch
        rw [if_pos hdns, hlimited, hdnsFetch]
      obtain ⟨result, hresult⟩ := hbound turns (by omega)
        ⟨gathered.resources ++ fetch.resources, fetch.failure.or gathered.error⟩
      exact ⟨result, Option.bind_eq_some_iff.mpr ⟨_, hfetch, hresult⟩⟩

end

/-! ## §3  The connectors -/

/-- The syncs return, and with that do not panic, exactly where no id of a parent that is
unwrapped ends in a blank, and the walks of the records end. -/
theorem syncs_return_iff (request : SyncRequest) (secret : Option (List UInt8)) :
    (∀ wire transport,
      (Supabase.sync wire transport request secret).isSome = true ↔
        ∀ token projects organizations, Supabase.validateConnection request.connection = [] →
          secret = some token →
          Supabase.fetch wire transport token = .ok (projects, organizations) →
          (∀ o ∈ organizations, Supabase.Mappable o.id o.name) →
          (∀ p ∈ projects, Supabase.Mappable p.id p.name) →
          ∀ p ∈ projects, ∀ id ∈ p.organizationId, Unpadded id) ∧
    (∀ fromSlice transport,
      (∃ result, Aliyun.sync fromSlice transport request secret = .returned result) ↔
        ∀ session, (Aliyun.provider fromSlice).Begins request secret session →
          (Aliyun.provider fromSlice).Harmless transport session Aliyun.modules 0) ∧
    ∀ floatText fromSlice nowUnixSecs transport,
      (∃ turns result,
        Tencent.sync floatText fromSlice nowUnixSecs transport turns request secret =
          .returned result) ↔
        ∀ session,
          (Tencent.provider floatText fromSlice nowUnixSecs).Begins request secret session →
          (Tencent.provider floatText fromSlice nowUnixSecs).Harmless transport session
            Tencent.modules 0 := by
  have hempty : ∀ mapper : Mapper, mapper.ParentsUnpadded [] := fun _ r hr => by cases hr
  refine ⟨fun wire transport => Supabase.sync_isSome_iff, ?_, ?_⟩
  · intro fromSlice transport
    have hevidence : StartsVisible "aliyun" := ⟨'a', _, rfl, by decide⟩
    refine (@sync_returns_iff _ (Aliyun.provider fromSlice) _ hevidence _ _ _).trans ?_
    refine forall₂_congr fun session hbegins => ?_
    constructor
    · rintro ⟨gathered, next, hfetch, hunpadded⟩
      exact ((fetchAll_unpadded_iff Aliyun.dnsKind_noParent (fun _ => rfl) hfetch).mp hunpadded).2
    · intro hharmless
      -- the records of a domain have a page limit, so the listing always ends
      have hends : (Aliyun.provider fromSlice).sync transport maxPagesPerModule request secret ≠
          .running := sync_ends rfl _ _ _
      rw [sync_of_begins hbegins] at hends
      cases hfetch : (Aliyun.provider fromSlice).fetchAll transport session maxPagesPerModule
          (Aliyun.provider fromSlice).modules 0 ⟨[], none⟩ with
      | none =>
          rw [hfetch] at hends
          exact absurd rfl hends
      | some result =>
          obtain ⟨gathered, next⟩ := result
          exact ⟨gathered, next, rfl,
            (fetchAll_unpadded_iff Aliyun.dnsKind_noParent (fun _ => rfl) hfetch).mpr
              ⟨hempty _, hharmless⟩⟩
  · intro floatText fromSlice nowUnixSecs transport
    have hevidence : StartsVisible "tencent" := ⟨'t', _, rfl, by decide⟩
    constructor
    · rintro ⟨turns, hreturns⟩ session hbegins
      obtain ⟨gathered, next, hfetch, hunpadded⟩ :=
        (sync_returns_iff hevidence).mp hreturns session hbegins
      exact ((fetchAll_unpadded_iff Tencent.dnsKind_noParent (fun h => by cases h) hfetch).mp
        hunpadded).2
    · intro h
      by_cases hbegins : ∃ session,
          (Tencent.provider floatText fromSlice nowUnixSecs).Begins request secret session
      · obtain ⟨session, hsession⟩ := hbegins
        have hharmless := h session hsession
        obtain ⟨turns, hturns⟩ := fetchAll_returns rfl hharmless
        obtain ⟨⟨gathered, next⟩, hfetch⟩ := hturns turns le_rfl ⟨[], none⟩
        refine ⟨turns, (sync_returns_iff hevidence).mpr fun session' hsession' => ?_⟩
        obtain rfl := hsession'.unique hsession
        exact ⟨gathered, next, hfetch,
          (fetchAll_unpadded_iff Tencent.dnsKind_noParent (fun h => by cases h) hfetch).mpr
            ⟨hempty _, hharmless⟩⟩
      · exact ⟨0, (sync_returns_iff hevidence).mpr fun session hsession =>
          absurd ⟨session, hsession⟩ hbegins⟩

namespace PaddedFixture

def body (text : String) : Body := text.toUTF8.data.toList

/-- `[{"id":"project-1","name":"App","organization_id":"org-1 "}]`, and one organization. -/
def projectsBody : Body :=
  body "[\x7b\"id\":\"project-1\",\"name\":\"App\",\"organization_id\":\"org-1 \"\x7d]"

def organizationsBody : Body := body "[\x7b\"id\":\"org-1\",\"name\":\"Org\"\x7d]"

def wire : Supabase.Wire where
  join := fun path => some ("https://api.supabase.com" ++ path)
  headerValue := some
  projects := fun b =>
    if b = projectsBody then some [⟨"project-1", "App", some "org-1 ", none, none⟩] else none
  organizations := fun b => if b = organizationsBody then some [⟨"org-1", "Org"⟩] else none

def transport : Supabase.Transport := fun number _ =>
  if number = 0 then .ok projectsBody else .ok organizationsBody

def request : SyncRequest where
  syncRunId := ⟨"r", trimmed_r⟩
  connection :=
    { connectionId := ⟨"c", trimmed_c⟩
      connectorType := .supabaseManaged
      config := .object []
      configSchemaVersion := .one }
  mode := .full
  scope := ⟨"s", trimmed_s⟩
  cursor := none
  targetedResources := []

end PaddedFixture

open PaddedFixture in
/-- A blank after the id of an organization makes the sync panic. -/
theorem padded_organization_panics :
    Supabase.sync wire transport request (some [0x74]) = none := by
  have hfetch : Supabase.fetch wire transport [0x74] =
      .ok ([⟨"project-1", "App", some "org-1 ", none, none⟩], [⟨"org-1", "Org"⟩]) := by
    rfl
  by_contra hreturns
  have hunpadded := Supabase.sync_isSome_iff.mp (Option.isSome_iff_ne_none.mpr hreturns) _ _ _
    (by decide +kernel) rfl hfetch
    (List.forall_mem_singleton.mpr ⟨by decide, by decide, by decide⟩)
    (List.forall_mem_singleton.mpr ⟨by decide, by decide, by decide⟩)
  have hblank := hunpadded _ (List.mem_singleton.mpr rfl) "org-1 " rfl
  exact absurd hblank (by decide)

end Cloud

end NextInfra
