import Mathlib.Data.List.Sort
import NextInfra.Lib.Entries
import NextInfra.Lib.GrownTrees
import NextInfra.Lib.InsertionMap
import NextInfra.Query.Dto

/-!
# The inventory forest

The resources that are visible, under the parents that `*.contains` relations give them.
Each resource has the source of the first such relation for its parent; one edge of each
cycle of parents is dropped, and the trees are grown over what is left.

Every resource stands in the forest once, whatever the relations are
(`buildResourceForest_partitions`). The loops take fuel, and any fuel above the number of
resources is enough.
-/

namespace NextInfra

namespace Inventory

open ParentChains

/-! ## §1  The maps -/

abbrev ResourceTreeNode := RoseTree ResourceDto

def resourcesById (resources : List ResourceDto) : InsertionMap String ResourceDto :=
  resources.foldl (fun byId resource => byId.set resource.resourceId resource) .empty

/-- One relation of the loop: the first one that counts gives its target the parent. -/
def parentStep (byId : InsertionMap String ResourceDto)
    (parentByTarget : InsertionMap String String) (relation : RelationDto) :
    InsertionMap String String :=
  let source := relation.sourceResourceId
  let target := relation.targetResourceId
  if relation.lifecycle ≠ .active ∨ ".contains".toList.isSuffixOf relation.kind.toList = false then
    parentByTarget
  else if target = source then parentByTarget
  else if byId.has source = false ∨ byId.has target = false then parentByTarget
  else if parentByTarget.has target = true then parentByTarget
  else parentByTarget.set target source

def parentsByTarget (byId : InsertionMap String ResourceDto) (relations : List RelationDto) :
    InsertionMap String String :=
  relations.foldl (parentStep byId) .empty

/-- One pair of the loop: the target joins the children of its source. -/
def childStep (childIdsByParent : InsertionMap String (List String)) (entry : String × String) :
    InsertionMap String (List String) :=
  match childIdsByParent.get entry.2 with
  | none => childIdsByParent.set entry.2 [entry.1]
  | some siblings => childIdsByParent.set entry.2 (siblings ++ [entry.1])

def childIdsByParent (parentByTarget : InsertionMap String String) :
    InsertionMap String (List String) :=
  parentByTarget.entries.foldl childStep .empty

/-! ## §2  Cycles -/

/-- The inner loop of `detachCycles`: what it has seen, and where it stops. -/
def walk (parentByTarget : InsertionMap String String) :
    Nat → List String → String → Option (List String × String)
  | 0, _, _ => none
  | fuel + 1, seen, current =>
      match parentByTarget.get current with
      | none => some (seen, current)
      | some parent =>
          if current ∈ seen then some (seen, current)
          else walk parentByTarget fuel (current :: seen) parent

def detachFrom (fuel : Nat) (parentByTarget : InsertionMap String String) (start : String) :
    Option (InsertionMap String String) := do
  let (seen, current) ← walk parentByTarget fuel [] start
  return if current ∈ seen then parentByTarget.delete current else parentByTarget

/-- The keys are those the map has at the start. -/
def detachCycles (fuel : Nat) (parentByTarget : InsertionMap String String) :
    Option (InsertionMap String String) :=
  parentByTarget.keys.foldlM (detachFrom fuel) parentByTarget

/-! ## §3  The forest -/

section

variable (localeCompare : String → String → Int)

def compareByDisplayName (left right : ResourceTreeNode) : Int :=
  localeCompare left.value.displayName right.value.displayName

/-- `sort` with the comparison. -/
def sortByDisplayName (nodes : List ResourceTreeNode) : List ResourceTreeNode :=
  nodes.insertionSort fun left right => compareByDisplayName localeCompare left right ≤ 0

/-- None where the fuel is out, or an id has no resource. -/
def buildNode (byId : InsertionMap String ResourceDto)
    (childIdsByParent : InsertionMap String (List String)) :
    Nat → List String → String → Option ResourceTreeNode
  | 0, _, _ => none
  | fuel + 1, ancestors, resourceId => do
      let resource ← byId.get resourceId
      let childIds := (childIdsByParent.get resourceId).getD []
      let children ← (childIds.filter fun childId => decide (childId ∉ ancestors)).mapM
        (buildNode byId childIdsByParent fuel (resourceId :: ancestors))
      return .node resource (sortByDisplayName localeCompare children)

def buildResourceForest (fuel : Nat) (resources : List ResourceDto)
    (relations : List RelationDto) : Option (List ResourceTreeNode) := do
  let byId := resourcesById resources
  let parentByTarget ← detachCycles fuel (parentsByTarget byId relations)
  let nodes ← (resources.filter fun resource => !parentByTarget.has resource.resourceId).mapM
    fun resource =>
      buildNode localeCompare byId (childIdsByParent parentByTarget) fuel [] resource.resourceId
  return sortByDisplayName localeCompare nodes

end

/-- The loop of `flattenVisibleCount`; the stack is listed from its top. -/
def countNodes : Nat → List ResourceTreeNode → Nat → Option Nat
  | 0, _, _ => none
  | _ + 1, [], count => some count
  | fuel + 1, node :: stack, count => countNodes fuel (node.children.reverse ++ stack) (count + 1)

def flattenVisibleCount (fuel : Nat) (tree : List ResourceTreeNode) : Option Nat :=
  countNodes fuel tree.reverse 0

/-! ## §4  The first parent -/

/-- A relation that gives its target a parent. -/
def Contains (resources : List ResourceDto) (relation : RelationDto) : Prop :=
  relation.lifecycle = .active ∧ ".contains".toList.isSuffixOf relation.kind.toList = true ∧
    relation.targetResourceId ≠ relation.sourceResourceId ∧
    relation.sourceResourceId ∈ resources.map ResourceDto.resourceId ∧
    relation.targetResourceId ∈ resources.map ResourceDto.resourceId

instance (resources : List ResourceDto) (relation : RelationDto) :
    Decidable (Contains resources relation) := by
  unfold Contains
  infer_instance

/-- The first of the relations that gives a resource a parent. -/
def firstContains (resources : List ResourceDto) (relations : List RelationDto) (id : String) :
    Option RelationDto :=
  relations.find? fun relation =>
    decide (Contains resources relation ∧ relation.targetResourceId = id)

def firstParent (resources : List ResourceDto) (relations : List RelationDto) (id : String) :
    Option String :=
  (firstContains resources relations id).map RelationDto.sourceResourceId

section

variable {resources : List ResourceDto} {relations : List RelationDto}

theorem firstContains_eq_some {id : String} {relation : RelationDto}
    (h : firstContains resources relations id = some relation) :
    relation ∈ relations ∧ Contains resources relation ∧ relation.targetResourceId = id := by
  unfold firstContains at h
  have hfound := List.find?_some h
  exact ⟨List.mem_of_find?_eq_some h, of_decide_eq_true hfound⟩

/-- A resource and its parent are visible. -/
theorem firstParent_eq_some {id parent : String}
    (h : firstParent resources relations id = some parent) :
    parent ∈ resources.map ResourceDto.resourceId ∧ id ∈ resources.map ResourceDto.resourceId := by
  obtain ⟨relation, hfirst, rfl⟩ := Option.map_eq_some_iff.mp h
  obtain ⟨_, ⟨_, _, _, hsource, htarget⟩, rfl⟩ := firstContains_eq_some hfirst
  exact ⟨hsource, htarget⟩

theorem get_resourcesById (hids : (resources.map ResourceDto.resourceId).Nodup) (id : String) :
    (resourcesById resources).get id =
      resources.find? fun resource => decide (resource.resourceId = id) := by
  have hfold : resourcesById resources =
      (resources.map fun resource => (resource.resourceId, resource)).foldl
        (fun byId entry => byId.set entry.1 entry.2) .empty := by
    rw [List.foldl_map]
    rfl
  have hkeys : ((resources.map fun resource => (resource.resourceId, resource)).map
      Prod.fst).Nodup := by
    rw [List.map_map]
    exact hids
  rw [hfold, InsertionMap.get_foldl_set_of_nodup hkeys, List.find?_map]
  simp [Function.comp_def]

theorem get_resourcesById_eq_some_iff (hids : (resources.map ResourceDto.resourceId).Nodup)
    {id : String} {resource : ResourceDto} :
    (resourcesById resources).get id = some resource ↔
      resource ∈ resources ∧ resource.resourceId = id := by
  rw [get_resourcesById hids]
  constructor
  · intro h
    exact ⟨List.mem_of_find?_eq_some h, by simpa using List.find?_some h⟩
  · rintro ⟨hmem, rfl⟩
    cases hfind : resources.find? fun other =>
        decide (other.resourceId = resource.resourceId) with
    | none =>
        have hnot := List.find?_eq_none.mp hfind resource hmem
        simp at hnot
    | some other =>
        have hkey : other.resourceId = resource.resourceId := by simpa using List.find?_some hfind
        rw [List.inj_on_of_nodup_map hids (List.mem_of_find?_eq_some hfind) hmem hkey]

theorem has_resourcesById (hids : (resources.map ResourceDto.resourceId).Nodup) {id : String} :
    (resourcesById resources).has id = true ↔ id ∈ resources.map ResourceDto.resourceId := by
  unfold InsertionMap.has
  rw [Option.isSome_iff_exists, List.mem_map]
  exact exists_congr fun resource => get_resourcesById_eq_some_iff hids

/-- A relation that counts sets the parent of its target, unless it has one. -/
theorem get_parentStep (hids : (resources.map ResourceDto.resourceId).Nodup)
    (parentByTarget : InsertionMap String String) (relation : RelationDto) (id : String) :
    (parentStep (resourcesById resources) parentByTarget relation).get id =
      (parentByTarget.get id).or (if Contains resources relation ∧ relation.targetResourceId = id
        then some relation.sourceResourceId else none) := by
  have hpassed : ¬ Contains resources relation →
      (parentByTarget.get id) = (parentByTarget.get id).or
        (if Contains resources relation ∧ relation.targetResourceId = id
          then some relation.sourceResourceId else none) := by
    intro h
    rw [if_neg (fun hcontains => h hcontains.1), Option.or_none]
  unfold parentStep
  dsimp only
  split
  · rename_i hinactive
    apply hpassed
    rintro ⟨hactive, hkind, _⟩
    rcases hinactive with hinactive | hkind'
    · exact hinactive hactive
    · rw [hkind] at hkind'
      cases hkind'
  split
  · rename_i _ hself
    exact hpassed fun h => h.2.2.1 hself
  split
  · rename_i _ _ hhidden
    apply hpassed
    rintro ⟨_, _, _, hsource, htarget⟩
    rw [← has_resourcesById hids] at hsource htarget
    rw [hsource, htarget] at hhidden
    simp at hhidden
  rename_i hactive hself hvisible
  have hcontains : Contains resources relation := by
    rw [not_or, not_not, Bool.not_eq_false] at hactive
    rw [not_or, Bool.not_eq_false, Bool.not_eq_false, has_resourcesById hids,
      has_resourcesById hids] at hvisible
    exact ⟨hactive.1, hactive.2, hself, hvisible.1, hvisible.2⟩
  split
  · rename_i hset
    by_cases hid : relation.targetResourceId = id
    · subst hid
      obtain ⟨parent, hparent⟩ := Option.isSome_iff_exists.mp hset
      rw [hparent, Option.some_or]
    · rw [if_neg (fun h => hid h.2), Option.or_none]
  · rename_i hset
    rw [Bool.not_eq_true, InsertionMap.has_eq_false_iff] at hset
    rw [InsertionMap.get_set]
    by_cases hid : id = relation.targetResourceId
    · subst hid
      rw [if_pos rfl, if_pos ⟨hcontains, rfl⟩, hset, Option.none_or]
    · rw [if_neg hid, if_neg (fun h => hid h.2.symm), Option.or_none]

/-- The map of parents holds the first parents. -/
theorem get_parentsByTarget (hids : (resources.map ResourceDto.resourceId).Nodup) (id : String) :
    (parentsByTarget (resourcesById resources) relations).get id =
      firstParent resources relations id := by
  have hfold : ∀ parentByTarget : InsertionMap String String,
      (relations.foldl (parentStep (resourcesById resources)) parentByTarget).get id =
        (parentByTarget.get id).or (firstParent resources relations id) := by
    unfold firstParent firstContains
    induction relations with
    | nil =>
        intro parentByTarget
        simp
    | cons relation relations ih =>
        intro parentByTarget
        rw [List.foldl_cons, ih, get_parentStep hids, List.find?_cons, Option.or_assoc]
        congr 1
        by_cases h : Contains resources relation ∧ relation.targetResourceId = id
        · simp [h]
        · simp [h]
  exact hfold .empty

end

/-! ## §5  Cutting the cycles -/

section

variable {parentByTarget : InsertionMap String String}

theorem get_delete_eq_without (id : String) :
    (parentByTarget.delete id).get = without parentByTarget.get id := by
  funext j
  rw [InsertionMap.get_delete]
  by_cases hj : j = id
  · rw [if_pos hj, hj, without_self]
  · rw [if_neg hj, without_of_ne hj]

/-- What the walk keeps: it has seen keys, once each, and all of them below where it is. -/
structure Walking (parentByTarget : InsertionMap String String) (start : String)
    (seen : List String) (current : String) : Prop where
  nodup : seen.Nodup
  keys : seen ⊆ parentByTarget.keys
  below : ∀ id ∈ seen, Relation.TransGen (Step parentByTarget.get) id current
  reaches : Reaches parentByTarget.get start current

theorem Walking.step {start : String} {seen : List String} {current parent : String}
    (h : Walking parentByTarget start seen current) (hparent : parentByTarget.get current = some parent)
    (hseen : current ∉ seen) : Walking parentByTarget start (current :: seen) parent where
  nodup := List.nodup_cons.mpr ⟨hseen, h.nodup⟩
  keys := by
    intro id hid
    rcases List.mem_cons.mp hid with rfl | hid
    · rw [InsertionMap.mem_keys_iff, hparent]
      simp
    · exact h.keys hid
  below := by
    intro id hid
    rcases List.mem_cons.mp hid with rfl | hid
    · exact Relation.TransGen.single hparent
    · exact (h.below id hid).tail hparent
  reaches := h.reaches.tail hparent

/-- With fuel for every key the walk stops, at the end of the chain or on a cycle. -/
theorem walk_stops {fuel : Nat} {start : String} {seen : List String} {current : String}
    (h : Walking parentByTarget start seen current)
    (hfuel : parentByTarget.keys.length < fuel + seen.length) :
    ∃ seen' current', walk parentByTarget fuel seen current = some (seen', current') ∧
      Reaches parentByTarget.get start current' ∧
      (current' ∈ seen' → OnCycle parentByTarget.get current') ∧
      (current' ∉ seen' → parentByTarget.get current' = none) := by
  induction fuel generalizing seen current with
  | zero =>
      have hle := (List.subperm_of_subset h.nodup h.keys).length_le
      omega
  | succ fuel ih =>
      unfold walk
      cases hparent : parentByTarget.get current with
      | none => exact ⟨seen, current, rfl, h.reaches, fun hmem => h.below current hmem, fun _ => hparent⟩
      | some parent =>
          by_cases hseen : current ∈ seen
          · refine ⟨seen, current, if_pos hseen, h.reaches, fun _ => h.below current hseen, ?_⟩
            exact fun hnot => absurd hseen hnot
          · simp only [if_neg hseen]
            apply ih (h.step hparent hseen)
            rw [List.length_cons]
            omega

theorem detachFrom_relieves {fuel : Nat} (hfuel : parentByTarget.keys.length < fuel)
    (start : String) :
    ∃ left, detachFrom fuel parentByTarget start = some left ∧
      Relieved parentByTarget.get start left.get ∧ left.entries.Sublist parentByTarget.entries := by
  have hstart : Walking parentByTarget start [] start :=
    ⟨List.nodup_nil, List.nil_subset _, by simp, Relation.ReflTransGen.refl⟩
  obtain ⟨seen, current, hwalk, hreaches, hon, hoff⟩ := walk_stops hstart hfuel
  unfold detachFrom
  rw [hwalk]
  by_cases hseen : current ∈ seen
  · refine ⟨parentByTarget.delete current, by simp [hseen], ?_, List.filter_sublist⟩
    rw [get_delete_eq_without]
    exact Relieved.cut current hreaches (hon hseen)
  · refine ⟨parentByTarget, by simp [hseen], ?_, List.Sublist.refl _⟩
    exact Relieved.ended ⟨current, hreaches, hoff hseen⟩

/-- The pass relieves every key that the map had at its start. -/
theorem detachCycles_detaches {fuel : Nat} (hfuel : parentByTarget.keys.length < fuel) :
    ∃ left, detachCycles fuel parentByTarget = some left ∧
      Detached parentByTarget.get parentByTarget.keys left.get ∧
      left.entries.Sublist parentByTarget.entries := by
  have hpass : ∀ (starts : List String) (parentByTarget : InsertionMap String String),
      parentByTarget.keys.length < fuel →
        ∃ left, starts.foldlM (detachFrom fuel) parentByTarget = some left ∧
          Detached parentByTarget.get starts left.get ∧
          left.entries.Sublist parentByTarget.entries := by
    intro starts
    induction starts with
    | nil =>
        intro parentByTarget _
        exact ⟨parentByTarget, rfl, Detached.nil _, List.Sublist.refl _⟩
    | cons start starts ih =>
        intro parentByTarget hfuel
        obtain ⟨next, hnext, hrelieved, hsub⟩ := detachFrom_relieves hfuel start
        have hkeys : next.keys.length ≤ parentByTarget.keys.length :=
          (hsub.map Prod.fst).length_le
        obtain ⟨left, hleft, hdetached, hsub'⟩ := ih next (Nat.lt_of_le_of_lt hkeys hfuel)
        refine ⟨left, ?_, Detached.cons hrelieved hdetached, hsub'.trans hsub⟩
        rw [List.foldlM_cons, hnext]
        exact hleft
  exact hpass _ _ hfuel

/-! ## §6  Children -/

/-- The children of a parent, in the order of the map. -/
theorem get_childIdsByParent (parent : String) :
    ((childIdsByParent parentByTarget).get parent).getD [] =
      (parentByTarget.entries.filter fun entry => decide (entry.2 = parent)).map Prod.fst := by
  have hfold : ∀ (entries : List (String × String)) (children : InsertionMap String (List String)),
      ((entries.foldl childStep children).get parent).getD [] =
        (children.get parent).getD [] ++
          (entries.filter fun entry => decide (entry.2 = parent)).map Prod.fst := by
    intro entries
    induction entries with
    | nil => simp
    | cons entry entries ih =>
        intro children
        have hstep : ((childStep children entry).get parent).getD [] =
            (children.get parent).getD [] ++ if entry.2 = parent then [entry.1] else [] := by
          unfold childStep
          split
          · rename_i hnone
            rw [InsertionMap.get_set]
            by_cases hparent : entry.2 = parent
            · rw [← hparent, if_pos rfl, if_pos rfl, hnone]
              rfl
            · rw [if_neg (fun h => hparent h.symm), if_neg hparent, List.append_nil]
          · rename_i siblings hsome
            rw [InsertionMap.get_set]
            by_cases hparent : entry.2 = parent
            · rw [← hparent, if_pos rfl, if_pos rfl, hsome]
              rfl
            · rw [if_neg (fun h => hparent h.symm), if_neg hparent, List.append_nil]
        rw [List.foldl_cons, ih, hstep, List.filter_cons]
        by_cases hparent : entry.2 = parent
        · simp [hparent]
        · simp [hparent]
  exact hfold _ .empty

theorem mem_childIds_iff (parent child : String) :
    child ∈ ((childIdsByParent parentByTarget).get parent).getD [] ↔
      parentByTarget.get child = some parent := by
  rw [get_childIdsByParent, InsertionMap.get_eq_some_iff, List.mem_map]
  constructor
  · rintro ⟨⟨c, p⟩, hmem, rfl⟩
    obtain ⟨hentry, hparent⟩ := List.mem_filter.mp hmem
    rw [← of_decide_eq_true hparent]
    exact hentry
  · intro hentry
    exact ⟨(child, parent), List.mem_filter.mpr ⟨hentry, decide_eq_true rfl⟩, rfl⟩

theorem nodup_childIds (parent : String) :
    (((childIdsByParent parentByTarget).get parent).getD []).Nodup := by
  rw [get_childIdsByParent]
  exact parentByTarget.nodup.sublist (List.filter_sublist.map _)

end

/-! ## §7  Growing the trees -/

section

variable {localeCompare : String → String → Int} {resources : List ResourceDto}
  {parentByTarget : InsertionMap String String}

variable (localeCompare) in
theorem perm_sortByDisplayName (nodes : List ResourceTreeNode) :
    (sortByDisplayName localeCompare nodes).Perm nodes :=
  List.perm_insertionSort _ nodes

/-- The map holds parents among the resources, and its chains end. -/
structure Rooted (resources : List ResourceDto) (parentByTarget : InsertionMap String String) :
    Prop where
  visible : ∀ child parent, parentByTarget.get child = some parent →
    child ∈ resources.map ResourceDto.resourceId ∧ parent ∈ resources.map ResourceDto.resourceId
  ends : ∀ id, Ends parentByTarget.get id

/-- The children of an id. -/
def childIdsOf (parentByTarget : InsertionMap String String) (id : String) : List String :=
  ((childIdsByParent parentByTarget).get id).getD []

/-- A built tree: grown from the id, with visible resources. -/
structure Built (resources : List ResourceDto) (parentByTarget : InsertionMap String String)
    (id : String) (node : ResourceTreeNode) : Prop where
  grown : RoseTree.Grown ResourceDto.resourceId (childIdsOf parentByTarget) node
  top : node.value.resourceId = id
  visible : ∀ resource ∈ node.values, resource ∈ resources

variable (localeCompare) in
/-- Built trees for a list of ids, sorted. -/
theorem built_forest {ids : List String} {nodes : List ResourceTreeNode}
    (h : List.Forall₂ (Built resources parentByTarget) ids nodes) :
    RoseTree.GrownForest ResourceDto.resourceId (childIdsOf parentByTarget) ids
        (sortByDisplayName localeCompare nodes) ∧
      ∀ resource ∈ RoseTree.forestValues (sortByDisplayName localeCompare nodes),
        resource ∈ resources := by
  have hperm := perm_sortByDisplayName localeCompare nodes
  have hbuilt : ∀ node ∈ nodes, ∃ id, Built resources parentByTarget id node := by
    intro node hnode
    obtain ⟨id, _, hid⟩ := Fallible.forall₂_result h.flip hnode
    exact ⟨id, hid⟩
  have htops : nodes.map (fun node => node.value.resourceId) = ids := by
    clear hperm hbuilt
    induction h with
    | nil => rfl
    | cons hnode _ ih => rw [List.map_cons, hnode.top, ih]
  refine ⟨⟨?_, ?_⟩, ?_⟩
  · rw [← htops]
    exact hperm.map _
  · intro node hnode
    obtain ⟨id, hid⟩ := hbuilt node (hperm.mem_iff.mp hnode)
    exact hid.grown
  · intro resource hresource
    rw [RoseTree.forestValues_eq_flatMap] at hresource
    obtain ⟨node, hnode, hmem⟩ := List.mem_flatMap.mp hresource
    obtain ⟨id, hid⟩ := hbuilt node (hperm.mem_iff.mp hnode)
    exact hid.visible resource hmem

/-- The ancestors of a call stand above its id, so no child is filtered out and the fuel
lasts: there are fewer ancestors than resources. -/
theorem buildNode_builds (hids : (resources.map ResourceDto.resourceId).Nodup)
    (hrooted : Rooted resources parentByTarget) {fuel : Nat} {ancestors : List String} {id : String}
    (hid : id ∈ resources.map ResourceDto.resourceId) (hnodup : ancestors.Nodup)
    (hvisible : ancestors ⊆ resources.map ResourceDto.resourceId)
    (habove : ∀ a ∈ ancestors, Relation.TransGen (Step parentByTarget.get) id a)
    (hfuel : resources.length ≤ fuel + ancestors.length) :
    ∃ node, buildNode localeCompare (resourcesById resources) (childIdsByParent parentByTarget) fuel
        ancestors id = some node ∧ Built resources parentByTarget id node := by
  have hacyclic : ∀ id, ¬ OnCycle parentByTarget.get id := fun id => (hrooted.ends id).not_onCycle
  induction fuel generalizing ancestors id with
  | zero =>
      have hfresh : id ∉ ancestors := fun hmem => hacyclic id (habove id hmem)
      have hle := (List.subperm_of_subset (List.nodup_cons.mpr ⟨hfresh, hnodup⟩)
        (List.cons_subset.mpr ⟨hid, hvisible⟩)).length_le
      rw [List.length_cons, List.length_map] at hle
      omega
  | succ fuel ih =>
      obtain ⟨resource, hresource, rfl⟩ := List.mem_map.mp hid
      have hget := (get_resourcesById_eq_some_iff hids).mpr ⟨hresource, rfl⟩
      have hfresh : resource.resourceId ∉ ancestors := fun hmem => hacyclic _ (habove _ hmem)
      have hchild : ∀ child ∈ childIdsOf parentByTarget resource.resourceId,
          parentByTarget.get child = some resource.resourceId := fun child =>
        (mem_childIds_iff _ _).mp
      have hkept : (childIdsOf parentByTarget resource.resourceId).filter
          (fun childId => decide (childId ∉ ancestors)) =
            childIdsOf parentByTarget resource.resourceId := by
        rw [List.filter_eq_self]
        intro child hc
        rw [decide_eq_true_iff]
        intro hmem
        exact hacyclic _ ((habove child hmem).tail (hchild child hc))
      have hbuild : ∀ child ∈ childIdsOf parentByTarget resource.resourceId,
          ∃ node, buildNode localeCompare (resourcesById resources)
              (childIdsByParent parentByTarget) fuel (resource.resourceId :: ancestors) child =
                some node ∧ Built resources parentByTarget child node := by
        intro child hc
        have hstep : Step parentByTarget.get child resource.resourceId := hchild child hc
        apply ih (hrooted.visible _ _ hstep).1 (List.nodup_cons.mpr ⟨hfresh, hnodup⟩)
          (List.cons_subset.mpr ⟨hid, hvisible⟩)
        · intro a ha
          rcases List.mem_cons.mp ha with rfl | ha
          · exact Relation.TransGen.single hstep
          · exact Relation.TransGen.head hstep (habove a ha)
        · rw [List.length_cons]
          omega
      obtain ⟨nodes, hnodes, hall⟩ := Fallible.mapM_some_pairs hbuild
      obtain ⟨hforest, hmem⟩ := built_forest localeCompare hall
      refine ⟨.node resource (sortByDisplayName localeCompare nodes), ?_, ?_, rfl, ?_⟩
      · unfold buildNode
        rw [hget]
        show Option.bind (((childIdsOf parentByTarget resource.resourceId).filter _).mapM _) _ = _
        rw [hkept, hnodes]
        rfl
      · exact RoseTree.Grown.node _ _ hforest.tops hforest.grown
      · intro other hother
        rw [RoseTree.values, List.mem_cons] at hother
        rcases hother with rfl | hother
        · exact hresource
        · exact hmem other hother

end

/-! ## §8  More fuel -/

section

variable {localeCompare : String → String → Int}

theorem walk_mono {parentByTarget : InsertionMap String String} {fuel more : Nat}
    (hmore : fuel ≤ more) {seen : List String} {current : String} {result : List String × String}
    (h : walk parentByTarget fuel seen current = some result) :
    walk parentByTarget more seen current = some result := by
  induction fuel generalizing more seen current with
  | zero => cases h
  | succ fuel ih =>
      obtain ⟨more, rfl⟩ := Nat.exists_eq_add_of_le' (Nat.lt_of_lt_of_le (Nat.succ_pos fuel) hmore)
      unfold walk at h ⊢
      cases hparent : parentByTarget.get current with
      | none =>
          rw [hparent] at h
          exact h
      | some parent =>
          rw [hparent] at h
          by_cases hseen : current ∈ seen
          · simp only [if_pos hseen] at h ⊢
            exact h
          · simp only [if_neg hseen] at h ⊢
            exact ih (Nat.le_of_succ_le_succ hmore) h

theorem detachCycles_mono {parentByTarget left : InsertionMap String String} {fuel more : Nat}
    (hmore : fuel ≤ more) (h : detachCycles fuel parentByTarget = some left) :
    detachCycles more parentByTarget = some left := by
  have hpass : ∀ (starts : List String) (parentByTarget : InsertionMap String String),
      starts.foldlM (detachFrom fuel) parentByTarget = some left →
        starts.foldlM (detachFrom more) parentByTarget = some left := by
    intro starts
    induction starts with
    | nil => exact fun _ h => h
    | cons start starts ih =>
        intro parentByTarget h
        rw [List.foldlM_cons] at h ⊢
        obtain ⟨next, hnext, hrest⟩ := Option.bind_eq_some_iff.mp h
        obtain ⟨⟨seen, current⟩, hwalk, hleft⟩ := Option.bind_eq_some_iff.mp hnext
        have hnext' : detachFrom more parentByTarget start = some next :=
          Option.bind_eq_some_iff.mpr ⟨_, walk_mono hmore hwalk, hleft⟩
        exact Option.bind_eq_some_iff.mpr ⟨next, hnext', ih next hrest⟩
  exact hpass _ _ h

theorem buildNode_mono {byId : InsertionMap String ResourceDto}
    {children : InsertionMap String (List String)} {fuel more : Nat} (hmore : fuel ≤ more)
    {ancestors : List String} {id : String} {node : ResourceTreeNode}
    (h : buildNode localeCompare byId children fuel ancestors id = some node) :
    buildNode localeCompare byId children more ancestors id = some node := by
  induction fuel generalizing more ancestors id node with
  | zero => cases h
  | succ fuel ih =>
      obtain ⟨more, rfl⟩ := Nat.exists_eq_add_of_le' (Nat.lt_of_lt_of_le (Nat.succ_pos fuel) hmore)
      unfold buildNode at h ⊢
      obtain ⟨resource, hresource, hrest⟩ := Option.bind_eq_some_iff.mp h
      obtain ⟨nodes, hnodes, hnode⟩ := Option.bind_eq_some_iff.mp hrest
      refine Option.bind_eq_some_iff.mpr ⟨resource, hresource, ?_⟩
      refine Option.bind_eq_some_iff.mpr ⟨nodes, ?_, hnode⟩
      exact Fallible.mapM_mono (fun child built => ih (Nat.le_of_succ_le_succ hmore)) hnodes

/-- A forest that some fuel builds, more fuel builds too. -/
theorem buildResourceForest_mono {resources : List ResourceDto} {relations : List RelationDto}
    {fuel more : Nat} (hmore : fuel ≤ more) {forest : List ResourceTreeNode}
    (h : buildResourceForest localeCompare fuel resources relations = some forest) :
    buildResourceForest localeCompare more resources relations = some forest := by
  unfold buildResourceForest at h ⊢
  obtain ⟨parentByTarget, hdetach, hrest⟩ := Option.bind_eq_some_iff.mp h
  obtain ⟨nodes, hnodes, hforest⟩ := Option.bind_eq_some_iff.mp hrest
  refine Option.bind_eq_some_iff.mpr ⟨parentByTarget, detachCycles_mono hmore hdetach, ?_⟩
  refine Option.bind_eq_some_iff.mpr ⟨nodes, ?_, hforest⟩
  exact Fallible.mapM_mono (fun resource node => buildNode_mono hmore) hnodes

/-- The loop counts the nodes on the stack and below. -/
theorem countNodes_eq {fuel : Nat} {stack : List ResourceTreeNode} (count : Nat)
    (h : (RoseTree.forestValues stack).length < fuel) :
    countNodes fuel stack count = some (count + (RoseTree.forestValues stack).length) := by
  induction fuel generalizing stack count with
  | zero => omega
  | succ fuel ih =>
      cases stack with
      | nil => rfl
      | cons node stack =>
          have hpushed : (RoseTree.forestValues (node.children.reverse ++ stack)).length + 1 =
              (RoseTree.forestValues (node :: stack)).length := by
            rw [RoseTree.forestValues, RoseTree.values_eq_cons, RoseTree.forestValues_append,
              List.length_append,
              RoseTree.length_forestValues_perm (List.reverse_perm node.children),
              List.length_append, List.length_cons]
            omega
          unfold countNodes
          rw [ih (count + 1) (by omega), ← hpushed]
          congr 1
          omega

theorem flattenVisibleCount_eq {fuel : Nat} {tree : List ResourceTreeNode}
    (h : (RoseTree.forestValues tree).length < fuel) :
    flattenVisibleCount fuel tree = some (RoseTree.forestValues tree).length := by
  have hlength := RoseTree.length_forestValues_perm (List.reverse_perm tree)
  unfold flattenVisibleCount
  rw [countNodes_eq 0 (by omega), hlength, Nat.zero_add]

end

/-! ## §9  The forest is a partition -/

/-- The parent of the resource is dropped: no edge of the forest leads to it. -/
def Dropped (resources : List ResourceDto) (relations : List RelationDto)
    (forest : List ResourceTreeNode) (id : String) : Prop :=
  ∃ parent, firstParent resources relations id = some parent ∧
    (parent, id) ∉ (RoseTree.forestEdges forest).map
      (Prod.map ResourceDto.resourceId ResourceDto.resourceId)

structure IsForestOf (resources : List ResourceDto) (relations : List RelationDto)
    (forest : List ResourceTreeNode) : Prop where
  /-- Every resource occurs once. -/
  partition : (RoseTree.forestValues forest).Perm resources
  /-- An edge is the first relation listed for the child. -/
  edge : ∀ parent child, (parent, child) ∈ RoseTree.forestEdges forest →
    parent ∈ resources ∧ child ∈ resources ∧
      ∃ relation, firstContains resources relations child.resourceId = some relation ∧
        relation.sourceResourceId = parent.resourceId
  /-- A root with a parent is on a cycle of first parents. -/
  root : ∀ node ∈ forest, firstParent resources relations node.value.resourceId ≠ none →
    OnCycle (firstParent resources relations) node.value.resourceId
  cycle : ∀ id, OnCycle (firstParent resources relations) id →
    ∃! child, Reaches (firstParent resources relations) id child ∧
      Dropped resources relations forest child

section

variable {localeCompare : String → String → Int} {resources : List ResourceDto}
  {relations : List RelationDto}

variable (relations) in
/-- The parents that are left, from the first ones. -/
theorem detachCycles_parents (hids : (resources.map ResourceDto.resourceId).Nodup) {fuel : Nat}
    (hfuel : resources.length < fuel) :
    ∃ left, detachCycles fuel (parentsByTarget (resourcesById resources) relations) = some left ∧
      Rooted resources left ∧ OnePerCycle (firstParent resources relations) left.get ∧
      ∀ id, OnCycle (firstParent resources relations) id →
        ∃! child, Reaches (firstParent resources relations) id child ∧
          Lost (firstParent resources relations) left.get child := by
  have hget : (parentsByTarget (resourcesById resources) relations).get =
      firstParent resources relations := funext (get_parentsByTarget hids)
  have hkeys : (parentsByTarget (resourcesById resources) relations).keys ⊆
      resources.map ResourceDto.resourceId := by
    intro id hid
    rw [InsertionMap.mem_keys_iff, hget] at hid
    obtain ⟨parent, hparent⟩ := Option.ne_none_iff_exists'.mp hid
    exact (firstParent_eq_some hparent).2
  have hlength : (parentsByTarget (resourcesById resources) relations).keys.length ≤
      resources.length := by
    rw [← List.length_map ResourceDto.resourceId]
    exact (List.subperm_of_subset (InsertionMap.nodup _) hkeys).length_le
  obtain ⟨left, hleft, hdetached, _⟩ := detachCycles_detaches (Nat.lt_of_le_of_lt hlength hfuel)
  rw [hget] at hdetached
  have hall : ∀ id, firstParent resources relations id ≠ none →
      id ∈ (parentsByTarget (resourcesById resources) relations).keys := by
    intro id hid
    rw [InsertionMap.mem_keys_iff, hget]
    exact hid
  refine ⟨left, hleft, ⟨?_, hdetached.all_end hall⟩, hdetached.onePerCycle, ?_⟩
  · intro child parent hparent
    have hfirst := hdetached.onePerCycle.fewer child parent hparent
    exact ⟨(firstParent_eq_some hfirst).2, (firstParent_eq_some hfirst).1⟩
  · exact fun id hid => hdetached.exists_unique hall hid

variable (localeCompare) in
/-- The forest is grown from the parents that are left. -/
theorem buildResourceForest_grown (hids : (resources.map ResourceDto.resourceId).Nodup)
    {fuel : Nat} (hfuel : resources.length < fuel) {left : InsertionMap String String}
    (hleft : detachCycles fuel (parentsByTarget (resourcesById resources) relations) = some left)
    (hrooted : Rooted resources left) :
    ∃ forest, buildResourceForest localeCompare fuel resources relations = some forest ∧
      RoseTree.GrownForest ResourceDto.resourceId (childIdsOf left)
        ((resources.filter fun resource => !left.has resource.resourceId).map
          ResourceDto.resourceId) forest ∧
      ∀ resource ∈ RoseTree.forestValues forest, resource ∈ resources := by
  have hbuild : ∀ resource ∈ resources.filter (fun resource => !left.has resource.resourceId),
      ∃ node, buildNode localeCompare (resourcesById resources) (childIdsByParent left) fuel []
          resource.resourceId = some node ∧ Built resources left resource.resourceId node := by
    intro resource hresource
    have hmem := (List.mem_filter.mp hresource).1
    apply buildNode_builds hids hrooted (List.mem_map_of_mem hmem) List.nodup_nil
      (List.nil_subset _)
    · exact fun a ha => absurd ha List.not_mem_nil
    · exact Nat.le_of_lt hfuel
  obtain ⟨nodes, hnodes, hall⟩ := Fallible.mapM_some_pairs hbuild
  rw [← List.forall₂_map_left_iff] at hall
  obtain ⟨hforest, hvisible⟩ := built_forest localeCompare hall
  refine ⟨sortByDisplayName localeCompare nodes, ?_, hforest, hvisible⟩
  unfold buildResourceForest
  refine Option.bind_eq_some_iff.mpr ⟨left, hleft, ?_⟩
  exact Option.bind_eq_some_iff.mpr ⟨nodes, hnodes, rfl⟩

variable (localeCompare) (relations) in
theorem buildResourceForest_isForestOf (hids : (resources.map ResourceDto.resourceId).Nodup)
    {fuel : Nat} (hfuel : resources.length < fuel) :
    ∃ forest, buildResourceForest localeCompare fuel resources relations = some forest ∧
      IsForestOf resources relations forest := by
  obtain ⟨left, hleft, hrooted, hone, hunique⟩ :=
    detachCycles_parents relations hids hfuel
  obtain ⟨forest, hbuild, hgrown, hvisible⟩ :=
    buildResourceForest_grown localeCompare hids hfuel hleft hrooted
  refine ⟨forest, hbuild, ?_⟩
  have hbelow : ∀ parent child, child ∈ childIdsOf left parent ↔ left.get child = some parent :=
    mem_childIds_iff
  have htop : ∀ {id}, id ∈ (resources.filter fun resource =>
      !left.has resource.resourceId).map ResourceDto.resourceId ↔
        id ∈ resources.map ResourceDto.resourceId ∧ left.get id = none := by
    intro id
    rw [List.mem_map, List.mem_map]
    constructor
    · rintro ⟨resource, hmem, rfl⟩
      obtain ⟨hresource, hroot⟩ := List.mem_filter.mp hmem
      rw [Bool.not_eq_true', InsertionMap.has_eq_false_iff] at hroot
      exact ⟨⟨resource, hresource, rfl⟩, hroot⟩
    · rintro ⟨⟨resource, hresource, rfl⟩, hroot⟩
      refine ⟨resource, List.mem_filter.mpr ⟨hresource, ?_⟩, rfl⟩
      rw [Bool.not_eq_true', InsertionMap.has_eq_false_iff]
      exact hroot
  -- the chain of a visible resource ends at a root
  have hreach : ∀ id ∈ resources.map ResourceDto.resourceId,
      ∃ top ∈ (resources.filter fun resource => !left.has resource.resourceId).map
        ResourceDto.resourceId, Reaches left.get id top := by
    intro id hid
    obtain ⟨top, hup, hnone⟩ := hrooted.ends id
    refine ⟨top, htop.mpr ⟨?_, hnone⟩, hup⟩
    rcases Relation.ReflTransGen.cases_tail hup with rfl | ⟨child, _, hstep⟩
    · exact hid
    · exact (hrooted.visible child top hstep).2
  have hedges : ∀ {parent child}, (parent, child) ∈ (RoseTree.forestEdges forest).map
      (Prod.map ResourceDto.resourceId ResourceDto.resourceId) ↔ left.get child = some parent := by
    intro parent child
    rw [hgrown.mem_edges_iff hbelow]
    constructor
    · exact And.left
    · intro hparent
      exact ⟨hparent, hreach parent (hrooted.visible child parent hparent).2⟩
  have hdropped : ∀ {id}, Dropped resources relations forest id ↔
      Lost (firstParent resources relations) left.get id := by
    intro id
    constructor
    · rintro ⟨parent, hparent, hnot⟩
      refine ⟨by simp [hparent], ?_⟩
      rw [Option.eq_none_iff_forall_ne_some]
      intro other hother
      have hfirst := hone.fewer id other hother
      rw [hparent] at hfirst
      cases hfirst
      exact hnot (hedges.mpr hother)
    · rintro ⟨hfirst, hnone⟩
      obtain ⟨parent, hparent⟩ := Option.ne_none_iff_exists'.mp hfirst
      refine ⟨parent, hparent, ?_⟩
      rw [hedges, hnone]
      simp
  refine ⟨?_, ?_, ?_, ?_⟩
  · have hnodup : ((RoseTree.forestValues forest).map ResourceDto.resourceId).Nodup := by
      apply RoseTree.forest_nodup hbelow nodup_childIds hrooted.ends hgrown
      · exact hids.sublist (List.filter_sublist.map _)
      · exact fun id hid => (htop.mp hid).2
    refine (List.perm_ext_iff_of_nodup hnodup.of_map hids.of_map).mpr ?_
    intro resource
    refine ⟨hvisible resource, ?_⟩
    intro hresource
    have hid := List.mem_map_of_mem (f := ResourceDto.resourceId) hresource
    obtain ⟨other, hother, heq⟩ := List.mem_map.mp ((hgrown.mem_iff hbelow).mpr (hreach _ hid))
    rwa [List.inj_on_of_nodup_map hids (hvisible other hother) hresource heq] at hother
  · intro parent child hedge
    obtain ⟨hparent, hchild⟩ := RoseTree.values_of_mem_forestEdges hedge
    refine ⟨hvisible parent hparent, hvisible child hchild, ?_⟩
    have hleft' := hedges.mp (List.mem_map_of_mem hedge)
    exact Option.map_eq_some_iff.mp (hone.fewer _ _ hleft')
  · intro node hnode hfirst
    have hroot := htop.mp (hgrown.tops.mem_iff.mp (List.mem_map_of_mem hnode))
    exact hone.onCycle _ ⟨hfirst, hroot.2⟩
  · intro id hid
    simp only [hdropped]
    exact hunique id hid

theorem buildResourceForest_partitions (localeCompare : String → String → Int)
    {resources : List ResourceDto} (relations : List RelationDto)
    (hids : (resources.map ResourceDto.resourceId).Nodup) :
    ∃ forest,
      (∀ fuel, resources.length < fuel →
        buildResourceForest localeCompare fuel resources relations = some forest) ∧
        IsForestOf resources relations forest ∧
        ∀ fuel, resources.length < fuel →
          flattenVisibleCount fuel forest = some resources.length := by
  obtain ⟨forest, hbuild, hforest⟩ := buildResourceForest_isForestOf
    localeCompare relations hids (Nat.lt_succ_self _)
  refine ⟨forest, ?_, hforest, ?_⟩
  · intro fuel hfuel
    exact buildResourceForest_mono hfuel hbuild
  · intro fuel hfuel
    rw [← hforest.partition.length_eq] at hfuel ⊢
    exact flattenVisibleCount_eq hfuel

end

/-! ## §10  A cycle and a third parent -/

namespace Fixture

def resource (id name : String) : ResourceDto where
  resourceId := id
  connectionId := "fixture-connection"
  kind := "fixture.kind"
  displayName := name
  scope := "fixture-scope"
  lifecycle := .active
  health := .healthy
  freshness := .fresh
  observedAt := "2026-07-14T00:00:00.000Z"

def relation (id source target : String) : RelationDto where
  relationId := id
  sourceResourceId := source
  targetResourceId := target
  kind := "fixture.contains"
  lifecycle := .active
  evidenceType := .provider
  evidence := .provider "github" "fixture-connection" "fixture-run" "attributes.fixture_id"
  lastSeenAt := "2026-07-14T00:00:00.000Z"

def resources : List ResourceDto :=
  [resource "alpha" "Fixture Alpha", resource "beta" "Fixture Beta", resource "gamma" "Fixture Gamma"]

def relations : List RelationDto :=
  [relation "a-b" "alpha" "beta", relation "b-a" "beta" "alpha", relation "c-a" "gamma" "alpha"]

def byCodePoints (left right : String) : Int :=
  if left < right then -1 else if left = right then 0 else 1

end Fixture

theorem buildResourceForest_partitions_cycle :
    ∃ forest,
      (∀ fuel, 3 < fuel → buildResourceForest Fixture.byCodePoints fuel Fixture.resources
        Fixture.relations = some forest) ∧
        IsForestOf Fixture.resources Fixture.relations forest ∧
        ∀ fuel, 3 < fuel → flattenVisibleCount fuel forest = some 3 :=
  buildResourceForest_partitions Fixture.byCodePoints Fixture.relations
    (show (Fixture.resources.map ResourceDto.resourceId).Nodup by decide)

end Inventory

end NextInfra
