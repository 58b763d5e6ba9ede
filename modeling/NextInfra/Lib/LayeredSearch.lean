import Mathlib.Data.Set.Finite.Basic

/-!
# Layered search

A search of an undirected multigraph, one layer at a time: all edges at the
current frontier are drawn, and the nodes they lead to for the first time are
the next frontier. Edges are things of any type that name two ends.

What a layer may do is said once (`Expands`). From it follows what a search that
draws only some of the edges still guarantees (`Sound`), and that one that draws
all of them has after so many layers just the ball around the start, with the
sphere for its frontier (`Exhaustive`).
-/

namespace LayeredSearch

variable {ν ρ : Type}

/-! ## §1  Graphs and distances -/

/-- The two ends of an edge. -/
structure Ends (ν ρ : Type) where
  source : ρ → ν
  target : ρ → ν

namespace Ends

variable (g : Ends ν ρ)

def Incident (e : ρ) (v : ν) : Prop := g.source e = v ∨ g.target e = v

/-- The edge leads from one node to the other, in either direction. -/
def Joins (e : ρ) (u v : ν) : Prop :=
  g.source e = u ∧ g.target e = v ∨ g.source e = v ∧ g.target e = u

variable {g} {e : ρ} {u v : ν}

theorem Joins.incident (h : g.Joins e u v) : g.Incident e u := by
  rcases h with ⟨h, _⟩ | ⟨_, h⟩
  · exact Or.inl h
  · exact Or.inr h

theorem Joins.symm (h : g.Joins e u v) : g.Joins e v u := by
  rcases h with ⟨hs, ht⟩ | ⟨hs, ht⟩
  · exact Or.inr ⟨hs, ht⟩
  · exact Or.inl ⟨hs, ht⟩

end Ends

/-- At most `k` edges lead from the start to the node. -/
inductive Within (g : Ends ν ρ) (edges : Set ρ) (start : ν) : Nat → ν → Prop
  | start (k : Nat) : Within g edges start k start
  | step {k : Nat} {u v : ν} {e : ρ} :
      Within g edges start k u → e ∈ edges → g.Joins e u v → Within g edges start (k + 1) v

namespace Within

variable {g : Ends ν ρ} {edges edges' : Set ρ} {start v : ν} {k l : Nat}

theorem mono_edges (h : Within g edges start k v) (hsub : edges ⊆ edges') :
    Within g edges' start k v := by
  induction h with
  | start k => exact .start k
  | step _ he hjoins ih => exact .step ih (hsub he) hjoins

theorem mono_depth (h : Within g edges start k v) (hle : k ≤ l) : Within g edges start l v := by
  induction h generalizing l with
  | start _ => exact .start l
  | step _ he hjoins ih =>
      obtain ⟨m, rfl⟩ : ∃ m, l = m + 1 := ⟨l - 1, by omega⟩
      exact .step (ih (by omega)) he hjoins

/-- Where each edge has an image between the images of its ends, distances are kept. -/
theorem map {ν' ρ' : Type} {g' : Ends ν' ρ'} {onNode : ν → ν'} {image : Set ρ'}
    (himage : ∀ e ∈ edges, ∃ e' ∈ image,
      g'.source e' = onNode (g.source e) ∧ g'.target e' = onNode (g.target e))
    (h : Within g edges start k v) : Within g' image (onNode start) k (onNode v) := by
  induction h with
  | start k => exact .start k
  | step _ he hjoins ih =>
      obtain ⟨e', he', hsource, htarget⟩ := himage _ he
      refine .step ih he' ?_
      rcases hjoins with ⟨hs, ht⟩ | ⟨hs, ht⟩
      · exact Or.inl ⟨by rw [hsource, hs], by rw [htarget, ht]⟩
      · exact Or.inr ⟨by rw [hsource, hs], by rw [htarget, ht]⟩

/-- A node that is reached is the start or an end of an edge. -/
theorem start_or_end (h : Within g edges start k v) :
    v = start ∨ ∃ e ∈ edges, g.Incident e v := by
  cases h with
  | start k => exact Or.inl rfl
  | step _ he hjoins => exact Or.inr ⟨_, he, hjoins.symm.incident⟩

end Within

section

variable (g : Ends ν ρ) (edges : Set ρ) (start : ν) (k : Nat)

def ball : Set ν := {v | Within g edges start k v}

/-- The nodes at this distance. -/
def sphere : Set ν := {v | Within g edges start k v ∧ ∀ j < k, ¬ Within g edges start j v}

/-- The edges at nodes that are nearer. -/
def near : Set ρ := {e ∈ edges | ∃ u, g.Incident e u ∧ ∃ j < k, Within g edges start j u}

def edgesAt (nodes : Set ν) : Set ρ := {e ∈ edges | ∃ u ∈ nodes, g.Incident e u}

end

section

variable {g : Ends ν ρ} {edges : Set ρ} {start : ν} {k l : Nat}

theorem sphere_zero : sphere g edges start 0 = {start} := by
  ext v
  constructor
  · rintro ⟨h, -⟩
    cases h
    rfl
  · rintro rfl
    exact ⟨.start 0, fun j hj => by omega⟩

/-- Where a sphere is empty there is nothing further away. -/
theorem nearer_of_empty_sphere (hempty : sphere g edges start k = ∅) {v : ν}
    (h : Within g edges start l v) : ∃ j < k, Within g edges start j v := by
  -- what is within this distance is nearer; one step from there is within it again
  have hbelow : ∀ v, Within g edges start k v → ∃ j < k, Within g edges start j v := by
    intro v hv
    by_contra hnone
    push Not at hnone
    have hv' : v ∈ sphere g edges start k := ⟨hv, hnone⟩
    rw [hempty] at hv'
    exact hv'
  induction h with
  | start _ => exact hbelow start (.start k)
  | step _ he hjoins ih =>
      obtain ⟨j, hj, hu⟩ := ih
      exact hbelow _ ((Within.step hu he hjoins).mono_depth hj)

theorem sphere_empty_of_le (hempty : sphere g edges start k = ∅) (hle : k ≤ l) :
    sphere g edges start l = ∅ := by
  ext v
  refine ⟨?_, fun h => h.elim⟩
  rintro ⟨h, hfar⟩
  obtain ⟨j, hj, hwithin⟩ := nearer_of_empty_sphere hempty h
  exact hfar j (by omega) hwithin

/-- An edge at a node of the ball has both ends in the next one. -/
theorem ball_of_incident {u v : ν} {e : ρ} (hu : Within g edges start k u) (he : e ∈ edges)
    (hincident : g.Incident e u) (hv : g.Incident e v) : v ∈ ball g edges start (k + 1) := by
  rcases hincident with hsu | htu
  · rcases hv with hsv | htv
    · exact (hsu.symm.trans hsv) ▸ hu.mono_depth (Nat.le_succ k)
    · exact Within.step hu he (.inl ⟨hsu, htv⟩)
  · rcases hv with hsv | htv
    · exact Within.step hu he (.inr ⟨hsv, htu⟩)
    · exact (htu.symm.trans htv) ▸ hu.mono_depth (Nat.le_succ k)

/-- Finitely many edges reach finitely many nodes. -/
theorem ball_finite (hedges : edges.Finite) : (ball g edges start k).Finite := by
  refine (((hedges.image g.source).union (hedges.image g.target)).insert start).subset ?_
  intro v hv
  rcases Within.start_or_end hv with rfl | ⟨e, he, hincident | hincident⟩
  · exact Or.inl rfl
  · exact Or.inr (Or.inl ⟨e, he, hincident⟩)
  · exact Or.inr (Or.inr ⟨e, he, hincident⟩)

end

/-! ## §2  One layer -/

/-- From the first state to the second, edges at the frontier have been drawn
and the nodes they lead to visited. -/
structure Expands (g : Ends ν ρ) (edges : Set ρ) (frontier : Set ν) (drawn : Set ρ)
    (visited : Set ν) (drawn' : Set ρ) (visited' next : Set ν) : Prop where
  drawn_kept : drawn ⊆ drawn'
  visited_kept : visited ⊆ visited'
  drawn_at : ∀ e ∈ drawn', e ∈ drawn ∨ e ∈ edges ∧ ∃ u ∈ frontier, g.Incident e u
  ends_visited : ∀ e ∈ drawn', ∀ v, g.Incident e v → v ∈ visited'
  visited_by : ∀ v ∈ visited', v ∈ visited ∨ ∃ u ∈ frontier, ∃ e ∈ drawn', g.Joins e u v
  fresh : ∀ v ∈ visited', v ∈ visited ∨ v ∈ next
  next_visited : next ⊆ visited'
  next_fresh : ∀ v ∈ next, v ∉ visited

section Layer

variable {g : Ends ν ρ} {edges drawn drawn' : Set ρ} {visited visited' frontier next : Set ν}

/-- A layer that has drawn nothing yet. -/
theorem Expands.start (hends : ∀ e ∈ drawn, ∀ v, g.Incident e v → v ∈ visited) :
    Expands g edges frontier drawn visited drawn visited ∅ where
  drawn_kept := fun _ h => h
  visited_kept := fun _ h => h
  drawn_at := fun _ h => Or.inl h
  ends_visited := hends
  visited_by := fun _ h => Or.inl h
  fresh := fun _ h => Or.inl h
  next_visited := Set.empty_subset _
  next_fresh := fun _ h => h.elim

/-- Drawing one more edge at the frontier, whose other end has been visited. -/
theorem Expands.draw {e : ρ} {u v : ν}
    (h : Expands g edges frontier drawn visited drawn' visited' next) (he : e ∈ edges)
    (hu : u ∈ frontier) (hfrontier : frontier ⊆ visited) (hjoins : g.Joins e u v)
    (hv : v ∈ visited') :
    Expands g edges frontier drawn visited (insert e drawn') visited' next where
  drawn_kept := fun _ hd => Or.inr (h.drawn_kept hd)
  visited_kept := h.visited_kept
  drawn_at := by
    rintro d (rfl | hd)
    · exact Or.inr ⟨he, u, hu, hjoins.incident⟩
    · exact h.drawn_at d hd
  ends_visited := by
    rintro d (rfl | hd) w hw
    · have hwuv : w = u ∨ w = v := by
        rcases hjoins with ⟨hs, ht⟩ | ⟨hs, ht⟩ <;> rcases hw with hw | hw
        · exact Or.inl (hw.symm.trans hs)
        · exact Or.inr (hw.symm.trans ht)
        · exact Or.inr (hw.symm.trans hs)
        · exact Or.inl (hw.symm.trans ht)
      rcases hwuv with rfl | rfl
      · exact h.visited_kept (hfrontier hu)
      · exact hv
    · exact h.ends_visited d hd w hw
  visited_by := by
    intro w hw
    rcases h.visited_by w hw with hold | ⟨u', hu', d, hd, hjoins'⟩
    · exact Or.inl hold
    · exact Or.inr ⟨u', hu', d, Or.inr hd, hjoins'⟩
  fresh := h.fresh
  next_visited := h.next_visited
  next_fresh := h.next_fresh

/-- Drawing one more edge at the frontier and visiting its other end. -/
theorem Expands.visit {e : ρ} {u v : ν}
    (h : Expands g edges frontier drawn visited drawn' visited' next) (he : e ∈ edges)
    (hu : u ∈ frontier) (hfrontier : frontier ⊆ visited) (hjoins : g.Joins e u v)
    (hv : v ∉ visited') :
    Expands g edges frontier drawn visited (insert e drawn') (insert v visited')
      (insert v next) where
  drawn_kept := fun _ hd => Or.inr (h.drawn_kept hd)
  visited_kept := fun _ hw => Or.inr (h.visited_kept hw)
  drawn_at := by
    rintro d (rfl | hd)
    · exact Or.inr ⟨he, u, hu, hjoins.incident⟩
    · exact h.drawn_at d hd
  ends_visited := by
    rintro d (rfl | hd) w hw
    · rcases hjoins with ⟨hs, ht⟩ | ⟨hs, ht⟩ <;> rcases hw with hw | hw
      · exact Or.inr (h.visited_kept (hfrontier (by rwa [← hw, hs])))
      · exact Or.inl (hw.symm.trans ht)
      · exact Or.inl (hw.symm.trans hs)
      · exact Or.inr (h.visited_kept (hfrontier (by rwa [← hw, ht])))
    · exact Or.inr (h.ends_visited d hd w hw)
  visited_by := by
    rintro w (rfl | hw)
    · exact Or.inr ⟨u, hu, e, Or.inl rfl, hjoins⟩
    · rcases h.visited_by w hw with hold | ⟨u', hu', d, hd, hjoins'⟩
      · exact Or.inl hold
      · exact Or.inr ⟨u', hu', d, Or.inr hd, hjoins'⟩
  fresh := by
    rintro w (rfl | hw)
    · exact Or.inr (Or.inl rfl)
    · rcases h.fresh w hw with hold | hnew
      · exact Or.inl hold
      · exact Or.inr (Or.inr hnew)
  next_visited := by
    rintro w (rfl | hw)
    · exact Or.inl rfl
    · exact Or.inr (h.next_visited hw)
  next_fresh := by
    rintro w (rfl | hw)
    · exact fun hold => hv (h.visited_kept hold)
    · exact h.next_fresh w hw

end Layer

/-! ## §3  Searches -/

/-- What holds after any number of layers: the drawn edges stay inside the
visited nodes, and lead to each of them from the start. -/
structure Sound (g : Ends ν ρ) (edges : Set ρ) (start : ν) (levels : Nat) (drawn : Set ρ)
    (visited frontier : Set ν) : Prop where
  start_visited : start ∈ visited
  stored : drawn ⊆ edges
  ends_visited : ∀ e ∈ drawn, ∀ v, g.Incident e v → v ∈ visited
  within : ∀ v ∈ visited, Within g drawn start levels v
  near : ∀ e ∈ drawn, ∃ u, g.Incident e u ∧ ∃ k < levels, Within g edges start k u
  frontier_visited : frontier ⊆ visited

/-- What there is after so many layers when none of them left out an edge. -/
structure Exhaustive (g : Ends ν ρ) (edges : Set ρ) (start : ν) (levels : Nat) (drawn : Set ρ)
    (visited frontier : Set ν) : Prop where
  visited_eq : visited = ball g edges start levels
  drawn_eq : drawn = near g edges start levels
  frontier_eq : frontier = sphere g edges start levels

section Search

variable {g : Ends ν ρ} {edges drawn drawn' : Set ρ} {start : ν} {levels depth : Nat}
  {visited visited' frontier next : Set ν}

theorem Sound.initial : Sound g edges start 0 ∅ {start} {start} where
  start_visited := rfl
  stored := Set.empty_subset _
  ends_visited := fun _ h => h.elim
  within := by
    rintro v rfl
    exact .start 0
  near := fun _ h => h.elim
  frontier_visited := fun _ h => h

theorem Exhaustive.initial : Exhaustive g edges start 0 ∅ {start} {start} where
  visited_eq := by
    ext v
    constructor
    · rintro rfl
      exact .start 0
    · intro h
      cases h
      rfl
  drawn_eq := by
    ext e
    refine ⟨fun h => h.elim, ?_⟩
    rintro ⟨_, u, _, j, hj, _⟩
    omega
  frontier_eq := sphere_zero.symm

/-- A layer keeps a search sound. -/
theorem Sound.layer (h : Sound g edges start levels drawn visited frontier)
    (hexp : Expands g edges frontier drawn visited drawn' visited' next) :
    Sound g edges start (levels + 1) drawn' visited' next where
  start_visited := hexp.visited_kept h.start_visited
  stored := by
    intro e he
    rcases hexp.drawn_at e he with hold | ⟨hstored, _⟩
    · exact h.stored hold
    · exact hstored
  ends_visited := hexp.ends_visited
  within := by
    intro v hv
    rcases hexp.visited_by v hv with hold | ⟨u, hu, e, he, hjoins⟩
    · exact ((h.within v hold).mono_edges hexp.drawn_kept).mono_depth (Nat.le_succ _)
    · exact .step ((h.within u (h.frontier_visited hu)).mono_edges hexp.drawn_kept) he hjoins
  near := by
    intro e he
    rcases hexp.drawn_at e he with hold | ⟨_, u, hu, hincident⟩
    · obtain ⟨u, hincident, k, hk, hwithin⟩ := h.near e hold
      exact ⟨u, hincident, k, Nat.lt_succ_of_lt hk, hwithin⟩
    · exact ⟨u, hincident, levels, Nat.lt_succ_self _,
        (h.within u (h.frontier_visited hu)).mono_edges h.stored⟩
  frontier_visited := hexp.next_visited

/-- A layer that draws every edge at the frontier keeps a search exhaustive. -/
theorem Exhaustive.layer (h : Exhaustive g edges start levels drawn visited frontier)
    (hexp : Expands g edges frontier drawn visited drawn' visited' next)
    (hcovers : edgesAt g edges frontier ⊆ drawn') :
    Exhaustive g edges start (levels + 1) drawn' visited' next := by
  obtain ⟨rfl, rfl, rfl⟩ := h
  -- a node visited before the layer has all its edges drawn after it
  have hdone : ∀ u, Within g edges start levels u → ∀ e ∈ edges, g.Incident e u →
      e ∈ drawn' := by
    intro u hu e he hincident
    by_cases hnearer : ∃ j < levels, Within g edges start j u
    · exact hexp.drawn_kept ⟨he, u, hincident, hnearer⟩
    · push Not at hnearer
      exact hcovers ⟨he, u, ⟨hu, hnearer⟩, hincident⟩
  have hdrawn : drawn' = near g edges start (levels + 1) := by
    ext e
    constructor
    · intro he
      rcases hexp.drawn_at e he with ⟨he, u, hincident, j, hj, hu⟩ | ⟨he, u, hu, hincident⟩
      · exact ⟨he, u, hincident, j, Nat.lt_succ_of_lt hj, hu⟩
      · exact ⟨he, u, hincident, levels, Nat.lt_succ_self _, hu.1⟩
    · rintro ⟨he, u, hincident, j, hj, hu⟩
      exact hdone u (hu.mono_depth (Nat.le_of_lt_succ hj)) e he hincident
  have hvisited : visited' = ball g edges start (levels + 1) := by
    ext v
    constructor
    · intro hv
      rcases hexp.visited_by v hv with hv | ⟨u, hu, e, he, hjoins⟩
      · exact Within.mono_depth hv (Nat.le_succ _)
      · rw [hdrawn] at he
        exact Within.step hu.1 he.1 hjoins
    · intro hv
      cases hv with
      | start _ => exact hexp.visited_kept (.start levels)
      | step hu he hjoins =>
          exact hexp.ends_visited _ (hdone _ hu _ he hjoins.incident) _ hjoins.symm.incident
  refine ⟨hvisited, hdrawn, ?_⟩
  ext v
  constructor
  · intro hv
    have hnew := hexp.next_fresh v hv
    have hball := hexp.next_visited hv
    rw [hvisited] at hball
    exact ⟨hball, fun j hj hwithin => hnew (hwithin.mono_depth (Nat.le_of_lt_succ hj))⟩
  · rintro ⟨hv, hfar⟩
    have hball : v ∈ visited' := by
      rw [hvisited]
      exact hv
    rcases hexp.fresh v hball with hold | hnew
    · exact absurd hold (hfar levels (Nat.lt_succ_self _))
    · exact hnew

/-- A frontier that has run empty leaves nothing to reach: the search has as
good as gone through the remaining layers. -/
theorem Exhaustive.of_empty_frontier
    (h : Exhaustive g edges start levels drawn visited ∅) (hle : levels ≤ depth) :
    Exhaustive g edges start depth drawn visited ∅ := by
  have hempty : sphere g edges start levels = ∅ := h.frontier_eq.symm
  refine ⟨h.visited_eq.trans ?_, h.drawn_eq.trans ?_, (sphere_empty_of_le hempty hle).symm⟩
  · ext v
    refine ⟨fun hv => Within.mono_depth hv hle, fun hv => ?_⟩
    obtain ⟨j, hj, hwithin⟩ := nearer_of_empty_sphere hempty hv
    exact hwithin.mono_depth (Nat.le_of_lt hj)
  · ext e
    constructor
    · rintro ⟨he, u, hincident, j, hj, hu⟩
      exact ⟨he, u, hincident, j, Nat.lt_of_lt_of_le hj hle, hu⟩
    · rintro ⟨he, u, hincident, j, hj, hu⟩
      exact ⟨he, u, hincident, nearer_of_empty_sphere hempty hu⟩

theorem Sound.mono (h : Sound g edges start levels drawn visited frontier)
    (hle : levels ≤ depth) : Sound g edges start depth drawn visited frontier where
  start_visited := h.start_visited
  stored := h.stored
  ends_visited := h.ends_visited
  within := fun v hv => (h.within v hv).mono_depth hle
  near := by
    intro e he
    obtain ⟨u, hincident, k, hk, hwithin⟩ := h.near e he
    exact ⟨u, hincident, k, Nat.lt_of_lt_of_le hk hle, hwithin⟩
  frontier_visited := h.frontier_visited

theorem Exhaustive.visited_iff (h : Exhaustive g edges start depth drawn visited frontier)
    {v : ν} : v ∈ visited ↔ Within g edges start depth v := by
  rw [h.visited_eq]
  exact Iff.rfl

theorem Exhaustive.drawn_iff (h : Exhaustive g edges start depth drawn visited frontier) {e : ρ}
    (he : e ∈ edges) : e ∈ drawn ↔ ∃ u, g.Incident e u ∧ ∃ k < depth, Within g edges start k u := by
  rw [h.drawn_eq]
  exact ⟨fun hnear => hnear.2, fun hnear => ⟨he, hnear⟩⟩

end Search

end LayeredSearch
