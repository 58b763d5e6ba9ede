import Mathlib.Data.List.Nodup
import Mathlib.Data.List.Perm.Basic
import NextInfra.Lib.ParentChains

/-!
# Trees grown from parents

A tree is grown over a partial parent function when the children of each node are the
elements whose parent it is, in some order. Where the chains of parents end, grown trees
with all the parentless elements for roots hold every element once
(`forest_nodup`, `GrownForest.mem_iff`), and their edges are the parents
(`GrownForest.mem_edges_iff`).
-/

inductive RoseTree (α : Type) where
  | node (value : α) (children : List (RoseTree α))

namespace RoseTree

variable {α β : Type}

/-! ## §1  Nodes and edges -/

def value : RoseTree α → α
  | node a _ => a

def children : RoseTree α → List (RoseTree α)
  | node _ cs => cs

mutual
def values : RoseTree α → List α
  | node a cs => a :: forestValues cs
def forestValues : List (RoseTree α) → List α
  | [] => []
  | t :: ts => values t ++ forestValues ts
end

mutual
/-- The pairs of a node and a child of it. -/
def edges : RoseTree α → List (α × α)
  | node a cs => (cs.map fun c => (a, value c)) ++ forestEdges cs
def forestEdges : List (RoseTree α) → List (α × α)
  | [] => []
  | t :: ts => edges t ++ forestEdges ts
end

theorem forestValues_eq_flatMap (ts : List (RoseTree α)) :
    forestValues ts = ts.flatMap values := by
  induction ts with
  | nil => rfl
  | cons t ts ih => rw [forestValues, ih, List.flatMap_cons]

theorem forestEdges_eq_flatMap (ts : List (RoseTree α)) : forestEdges ts = ts.flatMap edges := by
  induction ts with
  | nil => rfl
  | cons t ts ih => rw [forestEdges, ih, List.flatMap_cons]

mutual
theorem values_of_mem_edges {p c : α} :
    ∀ {t : RoseTree α}, (p, c) ∈ edges t → p ∈ values t ∧ c ∈ values t
  | node a cs, h => by
      rw [edges, List.mem_append, List.mem_map] at h
      rw [values]
      rcases h with ⟨d, hd, heq⟩ | h
      · cases heq
        refine ⟨List.mem_cons_self, List.mem_cons_of_mem _ ?_⟩
        rw [forestValues_eq_flatMap, List.mem_flatMap]
        refine ⟨d, hd, ?_⟩
        cases d
        rw [values]
        exact List.mem_cons_self
      · obtain ⟨hp, hc⟩ := values_of_mem_forestEdges h
        exact ⟨List.mem_cons_of_mem _ hp, List.mem_cons_of_mem _ hc⟩
/-- The ends of an edge are nodes. -/
theorem values_of_mem_forestEdges {p c : α} :
    ∀ {ts : List (RoseTree α)}, (p, c) ∈ forestEdges ts →
      p ∈ forestValues ts ∧ c ∈ forestValues ts
  | [], h => by
      rw [forestEdges] at h
      cases h
  | t :: ts, h => by
      rw [forestEdges, List.mem_append] at h
      rw [forestValues, List.mem_append, List.mem_append]
      rcases h with h | h
      · obtain ⟨hp, hc⟩ := values_of_mem_edges h
        exact ⟨Or.inl hp, Or.inl hc⟩
      · obtain ⟨hp, hc⟩ := values_of_mem_forestEdges h
        exact ⟨Or.inr hp, Or.inr hc⟩
end

theorem length_forestValues_perm {ts ts' : List (RoseTree α)} (h : ts.Perm ts') :
    (forestValues ts).length = (forestValues ts').length := by
  rw [forestValues_eq_flatMap, forestValues_eq_flatMap]
  exact (h.flatMap_right values).length_eq

theorem forestValues_append (ts ts' : List (RoseTree α)) :
    forestValues (ts ++ ts') = forestValues ts ++ forestValues ts' := by
  simp [forestValues_eq_flatMap]

theorem values_eq_cons (t : RoseTree α) : t.values = t.value :: forestValues t.children := by
  cases t
  rw [values]
  rfl

/-! ## §2  Grown trees -/

/-- The children of each node are the elements below it. -/
inductive Grown (key : β → α) (below : α → List α) : RoseTree β → Prop
  | node (b : β) (cs : List (RoseTree β))
      (hkeys : (cs.map fun c => key c.value).Perm (below (key b)))
      (hcs : ∀ c ∈ cs, Grown key below c) : Grown key below (node b cs)

/-- Trees with these keys at the top. -/
structure GrownForest (key : β → α) (below : α → List α) (tops : List α)
    (ts : List (RoseTree β)) : Prop where
  tops : (ts.map fun t => key t.value).Perm tops
  grown : ∀ t ∈ ts, Grown key below t

open ParentChains

section

variable {key : β → α} {below : α → List α} {parent : α → Option α}
  (hbelow : ∀ a c, c ∈ below a ↔ parent c = some a)

include hbelow

/-- A tree holds what stands below its top. -/
theorem Grown.mem_iff {t : RoseTree β} (h : Grown key below t) {x : α} :
    x ∈ t.values.map key ↔ Reaches parent x (key t.value) := by
  induction h generalizing x with
  | node b cs hkeys _ ih =>
      rw [values, List.map_cons, List.mem_cons, forestValues_eq_flatMap, List.map_flatMap,
        List.mem_flatMap]
      constructor
      · rintro (rfl | ⟨c, hc, hx⟩)
        · exact Relation.ReflTransGen.refl
        · have htop : key c.value ∈ cs.map fun c => key c.value := List.mem_map_of_mem hc
          have hparent := (hbelow _ _).mp (hkeys.mem_iff.mp htop)
          exact Relation.ReflTransGen.tail ((ih c hc).mp hx) hparent
      · intro hx
        rcases Relation.ReflTransGen.cases_tail hx with heq | ⟨y, hxy, hstep⟩
        · exact Or.inl heq.symm
        · right
          obtain ⟨c, hc, rfl⟩ := List.mem_map.mp (hkeys.mem_iff.mpr ((hbelow _ _).mpr hstep))
          exact ⟨c, hc, (ih c hc).mpr hxy⟩

/-- The edges of a tree are the parents of what stands below its top. -/
theorem Grown.mem_edges_iff {t : RoseTree β} (h : Grown key below t) {p c : α} :
    (p, c) ∈ t.edges.map (Prod.map key key) ↔
      parent c = some p ∧ Reaches parent p (key t.value) := by
  induction h generalizing p c with
  | node b cs hkeys _ ih =>
      rw [edges, List.map_append, List.mem_append, forestEdges_eq_flatMap, List.map_flatMap,
        List.mem_flatMap, List.map_map]
      constructor
      · rintro (hmem | ⟨d, hd, hmem⟩)
        · obtain ⟨d, hd, heq⟩ := List.mem_map.mp hmem
          cases heq
          have htop : key d.value ∈ cs.map fun c => key c.value := List.mem_map_of_mem hd
          exact ⟨(hbelow _ _).mp (hkeys.mem_iff.mp htop), Relation.ReflTransGen.refl⟩
        · obtain ⟨hparent, hup⟩ := (ih d hd).mp hmem
          have htop : key d.value ∈ cs.map fun c => key c.value := List.mem_map_of_mem hd
          exact ⟨hparent, hup.tail ((hbelow _ _).mp (hkeys.mem_iff.mp htop))⟩
      · rintro ⟨hparent, hup⟩
        rcases Relation.ReflTransGen.cases_tail hup with heq | ⟨y, hpy, hstep⟩
        · left
          have heq' : key b = p := heq
          subst heq'
          obtain ⟨d, hd, rfl⟩ := List.mem_map.mp (hkeys.mem_iff.mpr ((hbelow _ _).mpr hparent))
          exact List.mem_map.mpr ⟨d, hd, rfl⟩
        · right
          obtain ⟨d, hd, rfl⟩ := List.mem_map.mp (hkeys.mem_iff.mpr ((hbelow _ _).mpr hstep))
          exact ⟨d, hd, (ih d hd).mpr ⟨hparent, hpy⟩⟩

/-- Trees whose tops do not stand above one another share nothing. -/
theorem forest_nodup_of {tops : List α} {ts : List (RoseTree β)}
    (h : GrownForest key below tops ts) (hnodup : tops.Nodup)
    (hapart : ∀ a ∈ tops, ∀ b ∈ tops, Reaches parent a b → a = b)
    (htrees : ∀ t ∈ ts, (t.values.map key).Nodup) : ((forestValues ts).map key).Nodup := by
  rw [forestValues_eq_flatMap, List.map_flatMap, List.nodup_flatMap]
  refine ⟨htrees, ?_⟩
  have htops : (ts.map fun t => key t.value).Nodup := h.tops.nodup_iff.mpr hnodup
  refine (List.pairwise_map.mp htops).imp_of_mem ?_
  intro s t hs ht hne x hxs hxt
  have hs' := h.tops.mem_iff.mp (List.mem_map_of_mem hs)
  have ht' := h.tops.mem_iff.mp (List.mem_map_of_mem ht)
  have hup := (h.grown s hs).mem_iff hbelow |>.mp hxs
  have hup' := (h.grown t ht).mem_iff hbelow |>.mp hxt
  rcases hup.total hup' with hst | hts
  · exact hne (hapart _ hs' _ ht' hst)
  · exact hne (hapart _ ht' _ hs' hts).symm

variable (hnodup : ∀ a, (below a).Nodup) (hends : ∀ a, Ends parent a)

include hnodup hends

theorem Grown.nodup {t : RoseTree β} (h : Grown key below t) : (t.values.map key).Nodup := by
  induction h with
  | node b cs hkeys hcs ih =>
      rw [values, List.map_cons, List.nodup_cons]
      have hforest : GrownForest key below (below (key b)) cs := ⟨hkeys, hcs⟩
      constructor
      · -- a child that held the node would close a cycle
        intro hmem
        rw [forestValues_eq_flatMap, List.map_flatMap, List.mem_flatMap] at hmem
        obtain ⟨c, hc, hb⟩ := hmem
        have htop := hkeys.mem_iff.mp (List.mem_map_of_mem hc)
        have hup := ((hcs c hc).mem_iff hbelow).mp hb
        exact (hends (key b)).not_onCycle (Relation.TransGen.tail' hup ((hbelow _ _).mp htop))
      · refine forest_nodup_of hbelow hforest (hnodup _) ?_ ih
        intro a ha c hc hac
        rcases eq_or_onCycle_of_siblings ((hbelow _ _).mp ha) ((hbelow _ _).mp hc) hac with
          heq | hcycle
        · exact heq
        · exact absurd hcycle (hends (key b)).not_onCycle

/-! ## §3  Forests -/

section

variable {tops : List α} {ts : List (RoseTree β)} (h : GrownForest key below tops ts)
  (htops : tops.Nodup) (hroots : ∀ a ∈ tops, parent a = none)

include h htops hroots

theorem forest_nodup : ((forestValues ts).map key).Nodup := by
  refine forest_nodup_of hbelow h htops ?_ fun t ht => (h.grown t ht).nodup hbelow hnodup hends
  intro a ha b _ hab
  rcases Relation.ReflTransGen.cases_head hab with heq | ⟨c, hc, _⟩
  · exact heq
  · have hnone := hroots a ha
    rw [show parent a = some c from hc] at hnone
    cases hnone

end

end

section

variable {key : β → α} {below : α → List α} {parent : α → Option α} {tops : List α}
  {ts : List (RoseTree β)}

/-- A forest holds what stands below its tops. -/
theorem GrownForest.mem_iff (hbelow : ∀ a c, c ∈ below a ↔ parent c = some a)
    (h : GrownForest key below tops ts) {x : α} :
    x ∈ (forestValues ts).map key ↔ ∃ a ∈ tops, Reaches parent x a := by
  rw [forestValues_eq_flatMap, List.map_flatMap, List.mem_flatMap]
  constructor
  · rintro ⟨t, ht, hx⟩
    exact ⟨_, h.tops.mem_iff.mp (List.mem_map_of_mem ht), ((h.grown t ht).mem_iff hbelow).mp hx⟩
  · rintro ⟨a, ha, hx⟩
    obtain ⟨t, ht, rfl⟩ := List.mem_map.mp (h.tops.mem_iff.mpr ha)
    exact ⟨t, ht, ((h.grown t ht).mem_iff hbelow).mpr hx⟩

/-- The edges of a forest are the parents of what it holds. -/
theorem GrownForest.mem_edges_iff (hbelow : ∀ a c, c ∈ below a ↔ parent c = some a)
    (h : GrownForest key below tops ts) {p c : α} :
    (p, c) ∈ (forestEdges ts).map (Prod.map key key) ↔
      parent c = some p ∧ ∃ a ∈ tops, Reaches parent p a := by
  rw [forestEdges_eq_flatMap, List.map_flatMap, List.mem_flatMap]
  constructor
  · rintro ⟨t, ht, hpc⟩
    obtain ⟨hparent, hup⟩ := ((h.grown t ht).mem_edges_iff hbelow).mp hpc
    exact ⟨hparent, _, h.tops.mem_iff.mp (List.mem_map_of_mem ht), hup⟩
  · rintro ⟨hparent, a, ha, hup⟩
    obtain ⟨t, ht, rfl⟩ := List.mem_map.mp (h.tops.mem_iff.mpr ha)
    exact ⟨t, ht, ((h.grown t ht).mem_edges_iff hbelow).mpr ⟨hparent, hup⟩⟩

end

end RoseTree
