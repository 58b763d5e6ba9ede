import NextInfra.Lib.KeyRuns
import NextInfra.Query.Freshness
import NextInfra.Query.Instants
import NextInfra.Query.Paging
import NextInfra.Query.Source

/-!
# Whole groups of the timeline

A page of the timeline shows its changes in groups, one for an origin and an instant. The
changes come newest first and by descending id, and a group is a run of equal group ids, so
that changes of two origins that share a millisecond may take turns and split each other's
groups. A group id is a joined text, and two inferences may join to the same one.
-/

namespace NextInfra

open CommittedQuerySource KeyRuns Sql

/-! ## §1  Group ids -/

/-- The text an inference is named by in a group id. -/
def inferenceText (ruleVersion : RuleVersion) (resourceVersionIds : List ResourceVersionId)
    (relationVersionIds : List RelationVersionId) : String :=
  "inference:" ++ ruleVersion.val ++ ":resources=" ++
    ",".intercalate (resourceVersionIds.map StringValue.val) ++ ":relations=" ++
    ",".intercalate (relationVersionIds.map StringValue.val)

/-- Two inferences are named by one text. -/
def OriginRef.SameText : OriginRef → OriginRef → Prop
  | .inference ruleVersion resources relations, .inference ruleVersion' resources' relations' =>
      inferenceText ruleVersion resources relations =
        inferenceText ruleVersion' resources' relations'
  | _, _ => False

instance : (origin origin' : OriginRef) → Decidable (origin.SameText origin')
  | .inference ruleVersion resources relations, .inference ruleVersion' resources' relations' =>
      inferInstanceAs (Decidable (inferenceText ruleVersion resources relations =
        inferenceText ruleVersion' resources' relations'))
  | .inference _ _ _, .syncRun _ => .isFalse id
  | .inference _ _ _, .binding _ => .isFalse id
  | .syncRun _, _ => .isFalse id
  | .binding _, _ => .isFalse id

/-- The last field of a text without the separator in it is determined by the text. -/
theorem last_field_inj {α : Type} {sep : α} {front back front' back' : List α} (h : sep ∉ back)
    (h' : sep ∉ back') (heq : front ++ sep :: back = front' ++ sep :: back') :
    front = front' ∧ back = back' := by
  rcases Separated.split_shifted heq with heq | ⟨mid, _, rfl⟩ | ⟨mid, _, rfl⟩
  · exact heq
  · exact absurd (by simp) h
  · exact absurd (by simp) h'

/-- The origin in a group id. -/
def OriginRef.groupText : OriginRef → String
  | .syncRun syncRunId => "sync_run:" ++ syncRunId.val
  | .binding bindingId => "binding:" ++ bindingId.val
  | .inference ruleVersion resources relations => inferenceText ruleVersion resources relations

theorem timelineGroupId_toList (origin : OriginRef) (at_ : Timestamp) :
    (timelineGroupId origin at_).toList =
      ("timeline:".toList ++ origin.groupText.toList) ++ ':' :: at_.text.toList := by
  have htext : timelineGroupId origin at_ = "timeline:" ++ origin.groupText ++ ":" ++ at_.text := by
    cases origin <;> rfl
  rw [htext, String.toList_append, String.toList_append, String.toList_append, List.append_assoc]
  rfl

theorem groupText_eq_iff {origin origin' : OriginRef} :
    origin.groupText = origin'.groupText ↔ origin = origin' ∨ origin.SameText origin' := by
  constructor
  · intro h
    have hlist := congrArg String.toList h
    cases origin with
    | syncRun id =>
        cases origin' with
        | syncRun id' =>
            left
            simp only [OriginRef.groupText, String.toList_append, List.append_cancel_left_eq,
              String.toList_inj] at hlist
            rw [StringValue.ext_val hlist]
        | binding id' => simp [OriginRef.groupText] at hlist
        | inference rule' resources' relations' =>
            simp [OriginRef.groupText, inferenceText] at hlist
    | binding id =>
        cases origin' with
        | syncRun id' => simp [OriginRef.groupText] at hlist
        | binding id' =>
            left
            simp only [OriginRef.groupText, String.toList_append, List.append_cancel_left_eq,
              String.toList_inj] at hlist
            rw [StringValue.ext_val hlist]
        | inference rule' resources' relations' =>
            simp [OriginRef.groupText, inferenceText] at hlist
    | inference rule resources relations =>
        cases origin' with
        | syncRun id' => simp [OriginRef.groupText, inferenceText] at hlist
        | binding id' => simp [OriginRef.groupText, inferenceText] at hlist
        | inference rule' resources' relations' => exact .inr h
  · rintro (rfl | hsame)
    · rfl
    · cases origin with
      | syncRun id => cases hsame
      | binding id => cases hsame
      | inference rule resources relations =>
          cases origin' with
          | syncRun id' => cases hsame
          | binding id' => cases hsame
          | inference rule' resources' relations' => exact hsame

/-- A group id tells the instant, and the origin but for inferences of one text. -/
theorem timelineGroupId_eq_iff {origin origin' : OriginRef} {at_ at' : Timestamp} :
    timelineGroupId origin at_ = timelineGroupId origin' at' ↔
      at_ = at' ∧ (origin = origin' ∨ origin.SameText origin') := by
  have hcolon : ∀ t : Timestamp, ':' ∉ t.text.toList := by
    intro t hmem
    have hdigit := t.text_digits _ hmem
    revert hdigit
    decide
  rw [← String.toList_inj, timelineGroupId_toList, timelineGroupId_toList, ← groupText_eq_iff]
  constructor
  · intro h
    obtain ⟨hfront, hback⟩ := last_field_inj (hcolon at_) (hcolon at') h
    exact ⟨Timestamp.text_injective (String.toList_inj.mp hback),
      String.toList_inj.mp (List.append_cancel_left hfront)⟩
  · rintro ⟨rfl, htext⟩
    rw [htext]

/-- Where the relations of one begin among the resources of the other. -/
example : (OriginRef.inference ⟨"dns@1", by decide⟩ [⟨"v1:relations=e1", by decide⟩]
      [⟨"e2", by decide⟩]).SameText
    (.inference ⟨"dns@1", by decide⟩ [⟨"v1", by decide⟩] [⟨"e1:relations=e2", by decide⟩]) := by
  decide

theorem changeOriginDto_injective : Function.Injective changeOriginDto := by
  have hmap : ∀ {name : String} {ids ids' : List (StringValue name)},
      ids.map StringValue.val = ids'.map StringValue.val → ids = ids' := fun h =>
    List.map_injective_iff.mpr (fun _ _ => StringValue.ext_val) h
  intro origin origin' h
  cases origin with
  | syncRun id =>
      cases origin' with
      | syncRun id' =>
          simp only [changeOriginDto, ChangeOriginDto.syncRun.injEq] at h
          rw [StringValue.ext_val h]
      | binding id' => cases h
      | inference rule' resources' relations' => cases h
  | binding id =>
      cases origin' with
      | syncRun id' => cases h
      | binding id' =>
          simp only [changeOriginDto, ChangeOriginDto.binding.injEq] at h
          rw [StringValue.ext_val h]
      | inference rule' resources' relations' => cases h
  | inference rule resources relations =>
      cases origin' with
      | syncRun id' => cases h
      | binding id' => cases h
      | inference rule' resources' relations' =>
          simp only [changeOriginDto, ChangeOriginDto.inference.injEq] at h
          rw [StringValue.ext_val h.1, hmap h.2.1, hmap h.2.2]

theorem formatTimestamp_injective : Function.Injective formatTimestamp := by
  intro t t' h
  have hread := (timestamps_round_trip.1 t).2
  rw [h, (timestamps_round_trip.1 t').2] at hread
  have hmillis : (t'.unixMillis : Int) = t.unixMillis := Except.ok.inj hread
  exact Timestamp.unixMillis_injective (by exact_mod_cast hmillis.symm)

/-! ## §2  Groups are runs -/

/-- A change as the timeline of a store shows it. -/
def Store.timelineItem (s : Store) (c : Change) : TimelineProjectionItem :=
  { change := c, versionLinks := s.readTimelineVersionLinks c }

def Change.groupId (c : Change) : String := timelineGroupId c.origin c.observedAt

/-- The group shows the changes of the run, under what the first of them says. -/
structure Shows (s : Store) (run : List Change) (group : TimelineGroupDto) : Prop where
  head : ∃ first ∈ run.head?, group.groupId = first.groupId ∧
    group.origin = changeOriginDto first.origin ∧
    group.occurredAt = formatTimestamp first.observedAt
  items : group.items = run.map fun c => timelineItemDto (s.timelineItem c)

variable {s : Store}

theorem Shows.opened (c : Change) :
    Shows s [c]
      { groupId := c.groupId, origin := changeOriginDto c.origin
        occurredAt := formatTimestamp c.observedAt
        items := [timelineItemDto (s.timelineItem c)] } :=
  ⟨⟨c, rfl, rfl, rfl, rfl⟩, rfl⟩

theorem Shows.groupId {run : List Change} {group : TimelineGroupDto} (h : Shows s run group) :
    run.head?.map Change.groupId = some group.groupId := by
  obtain ⟨first, hfirst, hid, -⟩ := h.head
  rw [Option.mem_def.mp hfirst, Option.map_some, hid]

/-- A change joins the group of a run where it joins the run. -/
theorem pushItem_shows {runs : List (List Change)} {groups : List TimelineGroupDto}
    (h : List.Forall₂ (Shows s) runs groups) (c : Change) :
    List.Forall₂ (Shows s) (push Change.groupId runs c)
      (pushItem groups (s.timelineItem c)) := by
  unfold push pushItem
  cases h with
  | nil => exact .cons (Shows.opened c) .nil
  | @cons run group runs groups hshows hrest =>
      by_cases hid : group.groupId = c.groupId
      · have hjoins : run.head?.map Change.groupId = some c.groupId := by
          rw [hshows.groupId, hid]
        have hgroup : group.groupId =
            timelineGroupId (s.timelineItem c).change.origin
              (s.timelineItem c).change.observedAt := hid
        simp only [if_pos hjoins, if_pos hgroup]
        obtain ⟨first, hfirst, hhead⟩ := hshows.head
        refine .cons ⟨⟨first, ?_, hhead⟩, ?_⟩ hrest
        · rw [List.head?_append, Option.mem_def.mp hfirst]
          rfl
        · rw [List.map_append, ← hshows.items]
          rfl
      · have hopens : ¬ run.head?.map Change.groupId = some c.groupId := by
          rw [hshows.groupId, Option.some.injEq]
          exact hid
        have hgroup : ¬ group.groupId =
            timelineGroupId (s.timelineItem c).change.origin
              (s.timelineItem c).change.observedAt := hid
        simp only [if_neg hopens, if_neg hgroup]
        exact .cons (Shows.opened c) (.cons hshows hrest)

theorem timelineGroups_show (changes : List Change) :
    List.Forall₂ (Shows s) (runs Change.groupId changes)
      (timelineGroups (changes.map s.timelineItem)) := by
  unfold runs timelineGroups
  refine List.forall₂_reverse_iff.mpr ?_
  induction changes using List.reverseRecOn with
  | nil => exact .nil
  | append_singleton changes c ih =>
      rw [List.map_append, List.foldl_append, List.foldl_append]
      exact pushItem_shows ih c

/-! ## §3  Whole groups -/

/-- The groups of a page of changes are whole: no id stands twice, each group has the changes of
its origin and its instant, and no change is left out. -/
structure GroupsWhole (s : Store) (changes : List Change) (groups : List TimelineGroupDto) :
    Prop where
  ids_once : (groups.map TimelineGroupDto.groupId).Nodup
  members : ∀ group ∈ groups, group.items =
    (changes.filter fun c => decide (changeOriginDto c.origin = group.origin ∧
      formatTimestamp c.observedAt = group.occurredAt)).map
      fun c => timelineItemDto (s.timelineItem c)
  total : groups.flatMap TimelineGroupDto.items =
    changes.map fun c => timelineItemDto (s.timelineItem c)

/-- The origins of the changes of one instant are told apart: no change of another origin has an
id between those of two changes of one, and no two inferences are named by one text. -/
structure ToldApart (changes : List Change) : Prop where
  unbroken : ∀ a ∈ changes, ∀ b ∈ changes, ∀ c ∈ changes, a.observedAt = c.observedAt →
    b.observedAt = c.observedAt → c.changeId < b.changeId → b.changeId < a.changeId →
    a.origin = c.origin → b.origin = c.origin
  distinct : ∀ a ∈ changes, ∀ b ∈ changes, a.observedAt = b.observedAt →
    a.origin.SameText b.origin → a.origin = b.origin

theorem toldApart_iff {changes : List Change} : ToldApart changes ↔
    (∀ a ∈ changes, ∀ b ∈ changes, ∀ c ∈ changes, a.observedAt = c.observedAt →
      b.observedAt = c.observedAt → c.changeId < b.changeId → b.changeId < a.changeId →
      a.origin = c.origin → b.origin = c.origin) ∧
    ∀ a ∈ changes, ∀ b ∈ changes, a.observedAt = b.observedAt →
      a.origin.SameText b.origin → a.origin = b.origin :=
  ⟨fun h => ⟨h.unbroken, h.distinct⟩, fun h => ⟨h.1, h.2⟩⟩

instance (changes : List Change) : Decidable (ToldApart changes) :=
  decidable_of_iff _ toldApart_iff.symm

theorem groupId_eq_iff {changes : List Change}
    (hdistinct : ∀ a ∈ changes, ∀ b ∈ changes, a.observedAt = b.observedAt →
      a.origin.SameText b.origin → a.origin = b.origin)
    {a b : Change} (ha : a ∈ changes) (hb : b ∈ changes) :
    a.groupId = b.groupId ↔ a.origin = b.origin ∧ a.observedAt = b.observedAt := by
  unfold Change.groupId
  rw [timelineGroupId_eq_iff]
  constructor
  · rintro ⟨hat, horigin | hsame⟩
    · exact ⟨horigin, hat⟩
    · exact ⟨hdistinct a ha b hb hat hsame, hat⟩
  · rintro ⟨horigin, hat⟩
    exact ⟨hat, .inl horigin⟩

/-- Changes that come newest first keep the origins of an instant together where no other origin
comes between two changes of one. -/
theorem together_iff_unbroken {changes : List Change}
    (hordered : changes.Pairwise fun a b => changeBefore a b = true)
    (hdistinct : ∀ a ∈ changes, ∀ b ∈ changes, a.observedAt = b.observedAt →
      a.origin.SameText b.origin → a.origin = b.origin) :
    Together Change.groupId changes ↔
      ∀ a ∈ changes, ∀ b ∈ changes, ∀ c ∈ changes, a.observedAt = c.observedAt →
        b.observedAt = c.observedAt → c.changeId < b.changeId → b.changeId < a.changeId →
        a.origin = c.origin → b.origin = c.origin := by
  rw [together_iff_between hordered fun a b hab hba =>
    lt_asymm (of_decide_eq_true hab) (of_decide_eq_true hba)]
  constructor
  · intro h a ha b hb c hc hac hbc hcb hba horigin
    have hkey : b.groupId = a.groupId := by
      refine h a ha b hb c hc ?_ ?_ ((groupId_eq_iff hdistinct ha hc).mpr ⟨horigin, hac⟩)
      · exact changeBefore_iff.mpr (.inr ⟨hbc.trans hac.symm, hba⟩)
      · exact changeBefore_iff.mpr (.inr ⟨hbc.symm, hcb⟩)
    exact ((groupId_eq_iff hdistinct hb ha).mp hkey).1.trans horigin
  · intro h a ha b hb c hc hab hbc hkey
    obtain ⟨horigin, hac⟩ := (groupId_eq_iff hdistinct ha hc).mp hkey
    -- between two changes of one instant stand only changes of that instant
    rcases changeBefore_iff.mp hab with hlt | ⟨hba, hid⟩
    · rcases changeBefore_iff.mp hbc with hlt' | ⟨hcb, -⟩
      · exact absurd hac (ne_of_gt (lt_trans hlt' hlt))
      · exact absurd hac (ne_of_gt (hcb ▸ hlt))
    · rcases changeBefore_iff.mp hbc with hlt | ⟨hcb, hid'⟩
      · exact absurd hac (ne_of_gt (hba ▸ hlt))
      · have hb' := h a ha b hb c hc hac hcb.symm hid' hid horigin
        exact (groupId_eq_iff hdistinct hb ha).mpr ⟨hb'.trans horigin.symm, hba⟩

theorem shows_ids {runs : List (List Change)} {groups : List TimelineGroupDto}
    (h : List.Forall₂ (Shows s) runs groups) :
    (runs.map fun run => run.head?.map Change.groupId) =
      (groups.map TimelineGroupDto.groupId).map some := by
  induction h with
  | nil => rfl
  | cons hshows _ ih => rw [List.map_cons, List.map_cons, List.map_cons, hshows.groupId, ih]

theorem shows_items {runs : List (List Change)} {groups : List TimelineGroupDto}
    (h : List.Forall₂ (Shows s) runs groups) :
    groups.flatMap TimelineGroupDto.items =
      runs.flatten.map fun c => timelineItemDto (s.timelineItem c) := by
  induction h with
  | nil => rfl
  | cons hshows _ ih =>
      rw [List.flatMap_cons, List.flatten_cons, List.map_append, hshows.items, ih]

theorem exists_run {runs : List (List Change)} {groups : List TimelineGroupDto}
    (h : List.Forall₂ (Shows s) runs groups) {group : TimelineGroupDto} (hgroup : group ∈ groups) :
    ∃ run ∈ runs, Shows s run group := by
  obtain ⟨i, hi, rfl⟩ := List.getElem_of_mem hgroup
  have hlt : i < runs.length := by rwa [h.length_eq]
  exact ⟨runs[i], List.getElem_mem hlt, h.get hlt hi⟩

theorem exists_group {runs : List (List Change)} {groups : List TimelineGroupDto}
    (h : List.Forall₂ (Shows s) runs groups) {run : List Change} (hrun : run ∈ runs) :
    ∃ group ∈ groups, Shows s run group := by
  obtain ⟨i, hi, rfl⟩ := List.getElem_of_mem hrun
  have hlt : i < groups.length := by rwa [← h.length_eq]
  exact ⟨groups[i], List.getElem_mem hlt, h.get hi hlt⟩

/-- No id stands twice exactly when the changes of every id stand together. -/
theorem ids_once_iff {changes : List Change} :
    ((timelineGroups (changes.map s.timelineItem)).map TimelineGroupDto.groupId).Nodup ↔
      Together Change.groupId changes := by
  rw [← List.nodup_map_iff (Option.some_injective String), ← shows_ids (timelineGroups_show changes),
    nodup_heads_iff (isRuns_runs changes), pairwise_apart_iff (isRuns_runs changes), flatten_runs]

/-- Where the changes of every id stand together, a group has all changes of its id. -/
theorem run_of_group {changes : List Change} (htogether : Together Change.groupId changes)
    {group : TimelineGroupDto} (hgroup : group ∈ timelineGroups (changes.map s.timelineItem)) :
    ∃ first ∈ changes, group.origin = changeOriginDto first.origin ∧
      group.occurredAt = formatTimestamp first.observedAt ∧
      group.items = (changes.filter fun c => decide (c.groupId = first.groupId)).map
        fun c => timelineItemDto (s.timelineItem c) := by
  obtain ⟨run, hrun, hshows⟩ := exists_run (timelineGroups_show changes) hgroup
  obtain ⟨first, hfirst, -, horigin, hat⟩ := hshows.head
  have hmem : first ∈ run := List.mem_of_head? hfirst
  refine ⟨first, mem_of_mem_run hrun hmem, horigin, hat, ?_⟩
  rw [hshows.items, run_eq_filter htogether hrun hmem]

/-- In whole groups the changes of one id have one origin: that of their group. -/
theorem GroupsWhole.origin_of_id {changes : List Change}
    (h : GroupsWhole s changes (timelineGroups (changes.map s.timelineItem)))
    (htogether : Together Change.groupId changes) {a b : Change} (ha : a ∈ changes)
    (hb : b ∈ changes) (hid : b.groupId = a.groupId) : a.origin = b.origin := by
  obtain ⟨run, hrun, harun⟩ : ∃ run ∈ runs Change.groupId changes, a ∈ run := exists_run_of_mem ha
  have hbrun : b ∈ run := by
    rw [run_eq_filter htogether hrun harun]
    exact List.mem_filter.mpr ⟨hb, decide_eq_true hid⟩
  obtain ⟨group, hgroup, hshows⟩ := exists_group (timelineGroups_show changes) hrun
  have horigin : ∀ c ∈ run, changeOriginDto c.origin = group.origin := by
    intro c hc
    have hitem : timelineItemDto (s.timelineItem c) ∈ group.items :=
      hshows.items ▸ List.mem_map_of_mem hc
    rw [h.members group hgroup] at hitem
    obtain ⟨d, hd, heq⟩ := List.mem_map.mp hitem
    have hsame : changeOriginDto d.origin = changeOriginDto c.origin :=
      congrArg (fun item => item.change.origin) heq
    rw [← hsame]
    exact (of_decide_eq_true (List.mem_filter.mp hd).2).1
  exact changeOriginDto_injective ((horigin a harun).trans (horigin b hbrun).symm)

/-- The changes of a page are grouped whole exactly when their origins are told apart. -/
theorem groups_whole_iff {changes : List Change}
    (hordered : changes.Pairwise fun a b => changeBefore a b = true) :
    GroupsWhole s changes (timelineGroups (changes.map s.timelineItem)) ↔ ToldApart changes := by
  constructor
  · intro h
    have htogether := ids_once_iff.mp h.ids_once
    have hdistinct : ∀ a ∈ changes, ∀ b ∈ changes, a.observedAt = b.observedAt →
        a.origin.SameText b.origin → a.origin = b.origin := by
      intro a ha b hb hat hsame
      have hid : b.groupId = a.groupId := (timelineGroupId_eq_iff.mpr ⟨hat, .inr hsame⟩).symm
      exact h.origin_of_id htogether ha hb hid
    exact ⟨(together_iff_unbroken hordered hdistinct).mp htogether, hdistinct⟩
  · rintro ⟨hunbroken, hdistinct⟩
    have htogether := (together_iff_unbroken hordered hdistinct).mpr hunbroken
    refine ⟨ids_once_iff.mpr htogether, ?_, ?_⟩
    · intro group hgroup
      obtain ⟨first, hfirst, horigin, hat, hitems⟩ := run_of_group htogether hgroup
      rw [hitems, horigin, hat]
      congr 1
      refine List.filter_congr fun c hc => ?_
      rw [decide_eq_decide, groupId_eq_iff hdistinct hc hfirst, changeOriginDto_injective.eq_iff,
        formatTimestamp_injective.eq_iff]
    · rw [shows_items (timelineGroups_show changes), flatten_runs]

/-! ## §4  Pages -/

/-- The changes of a page: the first of the history behind the cursor, newest first. -/
def Store.timelineWindow (s : Store) (limit : Nat) (after : Option String) : List Change :=
  match afterClause after with
  | .ok clauses => ((s.changeListing (allChanges limit)).filter (holds clauses)).take limit
  | .error _ => []

theorem timelineWindow_ordered (limit : Nat) (after : Option String) :
    (s.timelineWindow limit after).Pairwise fun a b => changeBefore a b = true := by
  unfold Store.timelineWindow
  split
  · exact Store.changeListing_ordered.sublist ((List.take_sublist _ _).trans List.filter_sublist)
  · exact List.Pairwise.nil

theorem spelled_afterClause {after : Option String} {clauses : List (Clause Change)}
    (h : afterClause after = .ok clauses) : Spelled clauses := by
  unfold afterClause at h
  split at h
  · obtain rfl := Except.ok.inj h
    intro clause hmem
    cases hmem
  · rename_i value
    cases hparsed : parseChangeCursor value with
    | error e =>
        rw [hparsed] at h
        cases h
    | ok cursor =>
        rw [hparsed] at h
        obtain rfl := Except.ok.inj h
        simp [Spelled, Clause.of]

/-- A page of the timeline shows the changes of its window. -/
theorem queryTimeline_items {limit : Nat} {after : Option String}
    {found : ProjectionSnapshot (ProjectionPage TimelineProjectionItem)}
    (h : s.queryTimeline limit after = .ok found) :
    found.body.items = (s.timelineWindow limit after).map s.timelineItem := by
  obtain ⟨_, hlimit, h⟩ := bind_ok h
  obtain ⟨page, hpage, hbody⟩ := bind_ok (withProjectionSnapshot_ok h)
  have hread : readRecentChanges s { allChanges limit with after := after } = .ok page := hpage
  have hsmall : limit < maxI64 := lt_of_le_of_lt (validateLimit_ok hlimit).2 (by decide)
  obtain ⟨clauses, hafter, -⟩ := bind_ok hread
  have hafter : afterClause after = .ok clauses := hafter
  rw [@Store.readRecentChanges_eq s (allChanges limit) hsmall after clauses hafter
    (spelled_afterClause hafter)] at hread
  rw [← Except.ok.inj hbody, ← Except.ok.inj hread]
  unfold Store.timelineWindow
  rw [hafter]
  show (Keyset.cut changeCursor limit _).items.map s.timelineItem = _
  rw [Keyset.items_cut]

/-- The groups of a page are whole exactly when the origins of the changes in it are told
apart. -/
theorem timeline_groups_whole_iff (source : CommittedQuerySource) (plan : TimelinePlan)
    (page : SourceSnapshot TimelineSourcePage) (h : source.getTimeline plan = .ok page) :
    GroupsWhole source.store (source.store.timelineWindow plan.limit plan.after) page.body.groups ↔
      ToldApart (source.store.timelineWindow plan.limit plan.after) := by
  obtain ⟨projection, hprojection, hpage⟩ := bind_ok h
  obtain rfl := Except.ok.inj hpage
  show GroupsWhole _ _ (timelineGroups projection.body.items) ↔ _
  rw [queryTimeline_items (readStore_ok hprojection)]
  exact groups_whole_iff (timelineWindow_ordered plan.limit plan.after)

/-- A source that serves a store, with nothing scheduled. -/
def sourceOf (s : Store) : CommittedQuerySource where
  store := s
  catalog := []
  context := { evaluatedAt := ⟨90, by decide⟩, queryContextRevision := 1, schedules := .empty }

/-- Three changes of one run at one instant make a whole group. -/
theorem timeline_groups_whole_tied : ∃ page,
    (sourceOf tiedStore).getTimeline ⟨50, none⟩ = .ok page ∧
    GroupsWhole tiedStore (tiedStore.timelineWindow 50 none) page.body.groups :=
  ⟨_, rfl, (timeline_groups_whole_iff (sourceOf tiedStore) ⟨50, none⟩ _ rfl).mpr
    (by decide +kernel)⟩

/-- Two runs that end in one millisecond, with the changed resources in turns. -/
def interleavedStore : Store :=
  let change (id : ChangeId) (resource : ResourceId) (run : SyncRunId) : Change :=
    { changeId := id, subject := .resource resource, observedAt := ⟨70, seventy_le⟩
      fields := [], origin := .syncRun run }
  { Store.fresh with
    changes := KeyedTable.empty.putAll
      [change ⟨"change:host-a:run-1", by decide⟩ ⟨"host-a", by decide⟩ ⟨"run-1", by decide⟩,
        change ⟨"change:host-b:run-2", by decide⟩ ⟨"host-b", by decide⟩ ⟨"run-2", by decide⟩,
        change ⟨"change:host-c:run-1", by decide⟩ ⟨"host-c", by decide⟩ ⟨"run-1", by decide⟩] }

/-- The group of the first run is shown twice. -/
theorem interleaved_runs_split : ∃ page,
    (sourceOf interleavedStore).getTimeline ⟨50, none⟩ = .ok page ∧
    page.body.groups.map TimelineGroupDto.groupId =
      ["timeline:sync_run:run-1:70", "timeline:sync_run:run-2:70", "timeline:sync_run:run-1:70"] ∧
    ¬ GroupsWhole interleavedStore (interleavedStore.timelineWindow 50 none) page.body.groups := by
  refine ⟨_, rfl, by decide +kernel, fun h => ?_⟩
  exact absurd h.ids_once (by decide +kernel)

end NextInfra
