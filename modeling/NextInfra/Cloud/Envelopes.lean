import NextInfra.Aliyun.Connector
import NextInfra.Lib.Entries
import NextInfra.Tencent.Connector

/-!
# What a page envelope yields

A list response holds the list of its action at a place of its own, among other fields.
`parse_page_envelope` does not know the place: it takes the first array it comes to in the
order of the keys, and a row that cannot be read empties the page. The rows it returns are
the listed ones exactly when nothing else comes first, and when it can tell a page that
does not read from an empty one.
-/

namespace NextInfra

/-! ## §1  Fields -/

namespace Value

/-- The keys of an object stand in their order, each once. -/
def OrderedKeys (fields : List (String × Value)) : Prop :=
  (fields.map Prod.fst).Pairwise (· < ·)

instance (fields : List (String × Value)) : Decidable (OrderedKeys fields) :=
  inferInstanceAs (Decidable ((fields.map Prod.fst).Pairwise (· < ·)))

/-- A field is found at its key. -/
theorem fieldOf_middle {before after : List (String × Value)} {key : String} {value : Value}
    (h : OrderedKeys (before ++ (key, value) :: after)) :
    fieldOf key (before ++ (key, value) :: after) = some value := by
  have hbefore : ∀ field ∈ before, field.1 ≠ key := by
    intro field hfield
    unfold OrderedKeys at h
    rw [List.map_append, List.pairwise_append] at h
    exact (h.2.2 field.1 (List.mem_map_of_mem hfield) key (by simp)).ne
  unfold fieldOf
  rw [List.find?_append, List.find?_eq_none.mpr fun field hfield => by simp [hbefore field hfield]]
  simp

theorem fieldOf_elsewhere {before after : List (String × Value)} {key other : String} {value : Value}
    (h : other ≠ key) :
    fieldOf other (before ++ (key, value) :: after) = fieldOf other (before ++ after) := by
  unfold fieldOf
  rw [List.find?_append, List.find?_append, List.find?_cons_of_neg (by simp [h.symm])]

theorem fieldOf_missing {before after : List (String × Value)} {key : String} {value : Value}
    (h : OrderedKeys (before ++ (key, value) :: after)) : fieldOf key (before ++ after) = none := by
  unfold OrderedKeys at h
  rw [List.map_append, List.pairwise_append, List.map_cons, List.pairwise_cons] at h
  unfold fieldOf
  rw [Option.map_eq_none_iff, List.find?_eq_none]
  intro field hfield
  rcases List.mem_append.mp hfield with hfield | hfield
  · simpa using (h.2.2 field.1 (List.mem_map_of_mem hfield) key (by simp)).ne
  · simpa using (h.2.1.1 field.1 (List.mem_map_of_mem hfield)).ne'

/-- The first array of an object, where a field holds one. -/
theorem firstArray_middle {before after : List (String × Value)} {key : String}
    {values : List Value} :
    firstArray (before ++ (key, .array values) :: after) =
      some ((firstArray before).getD values) := by
  unfold firstArray
  rw [List.findSome?_append]
  cases before.findSome? fun field => field.2.asArray <;> rfl

end Value

/-- The rows of a list that are read one by one, if all of them can be. -/
def readRows (read : Value → Option Cloud.ResourceDto) (rows : List Value) :
    Option (List Cloud.ResourceDto) :=
  rows.mapM read

/-! ## §2  Aliyun -/

namespace Aliyun

def readRow (item : Value) : Option Cloud.ResourceDto := item.asObject.map readResource

/-- `parse_page_envelope`; the parser is its only error. -/
def parsePageEnvelope (fromSlice : Body → Option Value) (body : Body) : Option PageEnvelope :=
  (fromSlice body).map envelopeOf

/-- A list response but for its rows: an object that wraps one array, the rows of the action,
among other fields. -/
structure ListResponse where
  before : List (String × Value)
  wrapper : String
  innerBefore : List (String × Value)
  list : String
  innerAfter : List (String × Value)
  after : List (String × Value)
  ordered : Value.OrderedKeys (before ++ (wrapper, .null) :: after)
  wraps_one : ∀ field ∈ innerBefore ++ innerAfter, field.2.asArray = none

namespace ListResponse

def inner (s : ListResponse) (rows : List Value) : List (String × Value) :=
  s.innerBefore ++ (s.list, .array rows) :: s.innerAfter

def value (s : ListResponse) (rows : List Value) : Value :=
  .object (s.before ++ (s.wrapper, .object (s.inner rows)) :: s.after)

/-- The array that is read in place of the rows: a field `Items`, or what the first object before
the wrapper has. -/
def shadow (s : ListResponse) : Option (List Value) :=
  ((Value.fieldOf "Items" (s.before ++ s.after)).bind Value.asArray).or
    ((Value.firstObject s.before).map fun fields => (Value.firstArray fields).getD [])

/-- Every row reads, and what shadows them, if anything does, reads the same. -/
def Yields (s : ListResponse) (rows : List Value) : Prop :=
  (∀ row ∈ rows, (readRow row).isSome = true) ∧
    ∀ other, s.shadow = some other → (readRows readRow other).getD [] =
      (readRows readRow rows).getD []

theorem ordered_value (s : ListResponse) (value : Value) :
    Value.OrderedKeys (s.before ++ (s.wrapper, value) :: s.after) := by
  have h := s.ordered
  unfold Value.OrderedKeys at h ⊢
  rw [List.map_append, List.map_cons] at h ⊢
  exact h

theorem items_value (s : ListResponse) (rows : List Value) :
    ((s.value rows).get "Items").bind Value.asArray =
      (Value.fieldOf "Items" (s.before ++ s.after)).bind Value.asArray := by
  show (Value.fieldOf "Items" (s.before ++ (s.wrapper, _) :: s.after)).bind Value.asArray = _
  by_cases hwrapper : "Items" = s.wrapper
  · have hordered := s.ordered_value (.object (s.inner rows))
    rw [hwrapper, Value.fieldOf_middle hordered, Value.fieldOf_missing hordered]
    rfl
  · rw [Value.fieldOf_elsewhere hwrapper]

theorem firstArray_inner (s : ListResponse) (rows : List Value) :
    Value.firstArray (s.inner rows) = some rows := by
  have hnone : Value.firstArray s.innerBefore = none := by
    unfold Value.firstArray
    rw [List.findSome?_eq_none_iff]
    exact fun field hfield => s.wraps_one field (List.mem_append_left _ hfield)
  unfold inner
  rw [Value.firstArray_middle, hnone]
  rfl

/-- The items are the rows, or what shadows them. -/
theorem envelope_items (s : ListResponse) (rows : List Value) :
    (envelopeOf (s.value rows)).items = (readRows readRow (s.shadow.getD rows)).getD [] := by
  have hfirst : Value.firstObject (s.before ++ (s.wrapper, .object (s.inner rows)) :: s.after) =
      some ((Value.firstObject s.before).getD (s.inner rows)) := by
    unfold Value.firstObject
    rw [List.findSome?_append]
    cases s.before.findSome? fun field => field.2.asObject <;> rfl
  have harray : itemsArray (s.value rows) = some (s.shadow.getD rows) ∨
      (itemsArray (s.value rows) = none ∧ s.shadow = some []) := by
    unfold itemsArray shadow
    rw [s.items_value]
    cases hitems : (Value.fieldOf "Items" (s.before ++ s.after)).bind Value.asArray with
    | some items => exact .inl rfl
    | none =>
        show (Value.firstObject _).bind Value.firstArray = _ ∨
          ((Value.firstObject _).bind Value.firstArray = none ∧ _)
        rw [hfirst]
        cases Value.firstObject s.before with
        | none => exact .inl (s.firstArray_inner rows)
        | some fields =>
            cases harray : Value.firstArray fields with
            | some values => exact .inl (by simp [harray])
            | none => exact .inr ⟨harray, by simp [harray]⟩
  show ((itemsArray (s.value rows)).bind (readRows readRow)).getD [] = _
  rcases harray with harray | ⟨harray, hshadow⟩
  · rw [harray]
    rfl
  · rw [harray, hshadow]
    rfl

end ListResponse

end Aliyun

/-! ## §3  Tencent -/

namespace Tencent

variable (floatText : UInt64 → String)

def readRow (item : Value) : Option Cloud.ResourceDto := item.asObject.map (readResource floatText)

/-- `parse_page_envelope`; no items of a positive total are an error. -/
def parsePageEnvelope (fromSlice : Body → Option Value) (body : Body) :
    Option (List Cloud.ResourceDto × Nat) :=
  (fromSlice body).bind (envelopeOf floatText)

/-- A list response but for its rows: a field of `Response` that ends in `Set` or `List`, among
other fields. -/
structure ListResponse where
  outerBefore : List (String × Value)
  before : List (String × Value)
  list : String
  after : List (String × Value)
  outerAfter : List (String × Value)
  outer_ordered : Value.OrderedKeys (outerBefore ++ ("Response", .null) :: outerAfter)
  ordered : Value.OrderedKeys (before ++ (list, .null) :: after)
  list_named : "Set".toList <:+ list.toList ∨ "List".toList <:+ list.toList

namespace ListResponse

def response (s : ListResponse) (rows : List Value) : List (String × Value) :=
  s.before ++ (s.list, .array rows) :: s.after

def value (s : ListResponse) (rows : List Value) : Value :=
  .object (s.outerBefore ++ ("Response", .object (s.response rows)) :: s.outerAfter)

/-- The total that is announced, in the response or beside it. -/
def total (s : ListResponse) : Nat :=
  (((Value.fieldOf "TotalCount" (s.before ++ s.after)).bind Value.asU64).or
    ((Value.fieldOf "TotalCount" (s.outerBefore ++ s.outerAfter)).bind Value.asU64)).getD 0

/-- The array that is read in place of the rows: one before them. -/
def shadow (s : ListResponse) : Option (List Value) := Value.firstArray s.before

/-- What shadows the rows, if anything does, reads the same; and the total tells an empty page from
one that does not read. -/
def Yields (s : ListResponse) (rows : List Value) : Prop :=
  (∀ other, s.shadow = some other → (readRows (readRow floatText) other).getD [] =
      (readRows (readRow floatText) rows).getD []) ∧
    (rows = [] → s.total = 0) ∧
    ((∃ row ∈ rows, (readRow floatText row).isSome = false) → 0 < s.total)

theorem ordered_value (s : ListResponse) (value : Value) :
    Value.OrderedKeys (s.before ++ (s.list, value) :: s.after) := by
  have h := s.ordered
  unfold Value.OrderedKeys at h ⊢
  rw [List.map_append, List.map_cons] at h ⊢
  exact h

theorem outer_ordered_value (s : ListResponse) (value : Value) :
    Value.OrderedKeys (s.outerBefore ++ ("Response", value) :: s.outerAfter) := by
  have h := s.outer_ordered
  unfold Value.OrderedKeys at h ⊢
  rw [List.map_append, List.map_cons] at h ⊢
  exact h

theorem responseOf_value (s : ListResponse) (rows : List Value) :
    responseOf (s.value rows) = some (s.response rows) := by
  show (Value.fieldOf "Response" (s.outerBefore ++ ("Response", _) :: s.outerAfter)).bind _ = _
  rw [Value.fieldOf_middle (s.outer_ordered_value _)]
  rfl

/-- A list is no number, wherever its name puts it. -/
theorem total_value (s : ListResponse) (rows : List Value) :
    ((((responseOf (s.value rows)).bind fun fields =>
      (Value.fieldOf "TotalCount" fields).bind Value.asU64).or
      (u64At (s.value rows) "TotalCount")).getD 0) = s.total := by
  have hinner : (Value.fieldOf "TotalCount" (s.response rows)).bind Value.asU64 =
      (Value.fieldOf "TotalCount" (s.before ++ s.after)).bind Value.asU64 := by
    by_cases hlist : "TotalCount" = s.list
    · unfold response
      rw [hlist, Value.fieldOf_middle (s.ordered_value _), Value.fieldOf_missing (s.ordered_value .null)]
      rfl
    · unfold response
      rw [Value.fieldOf_elsewhere hlist]
  have houter : u64At (s.value rows) "TotalCount" =
      (Value.fieldOf "TotalCount" (s.outerBefore ++ s.outerAfter)).bind Value.asU64 := by
    show (Value.fieldOf "TotalCount" (s.outerBefore ++ ("Response", _) :: s.outerAfter)).bind _ = _
    rw [Value.fieldOf_elsewhere (by decide)]
  rw [s.responseOf_value, houter]
  show (((Value.fieldOf "TotalCount" (s.response rows)).bind Value.asU64).or _).getD 0 = _
  rw [hinner]
  rfl

/-- The items are the rows, or what shadows them; the total decides whether none are an error. -/
theorem envelopeOf_value (s : ListResponse) (rows : List Value) :
    envelopeOf floatText (s.value rows) =
      if 0 < s.total ∧ (readItems floatText (s.shadow.getD rows)).isEmpty = true then none
      else some (readItems floatText (s.shadow.getD rows), s.total) := by
  have hfirst : (responseOf (s.value rows)).bind Value.firstArray = some (s.shadow.getD rows) := by
    rw [s.responseOf_value]
    exact Value.firstArray_middle
  unfold envelopeOf
  simp only [s.total_value, hfirst, Option.some_or, Option.map_some, Option.getD_some]

end ListResponse

end Tencent

/-! ## §4  Both connectors -/

theorem readRows_isSome {read : Value → Option Cloud.ResourceDto} {rows : List Value} :
    (readRows read rows).isSome = true ↔ ∀ row ∈ rows, (read row).isSome = true :=
  Fallible.mapM_isSome_iff

theorem Aliyun.ListResponse.yields_iff (s : Aliyun.ListResponse) (rows : List Value) :
    some (Aliyun.envelopeOf (s.value rows)).items = readRows Aliyun.readRow rows ↔
      s.Yields rows := by
  rw [s.envelope_items]
  unfold Yields
  rw [← readRows_isSome]
  cases hrows : readRows Aliyun.readRow rows with
  | none => simp
  | some items =>
      cases hshadow : s.shadow with
      | none => simp [hrows]
      | some other => simp

theorem Tencent.ListResponse.yields_iff (floatText : UInt64 → String) (s : Tencent.ListResponse)
    (rows : List Value) :
    (Tencent.envelopeOf floatText (s.value rows)).map Prod.fst =
        readRows (Tencent.readRow floatText) rows ↔ s.Yields floatText rows := by
  have hread : ∀ values, Tencent.readItems floatText values =
      (readRows (Tencent.readRow floatText) values).getD [] := fun _ => rfl
  have hempty : readRows (Tencent.readRow floatText) rows = some [] ↔ rows = [] := by
    constructor
    · intro h
      cases rows with
      | nil => rfl
      | cons row rows =>
          unfold readRows at h
          rw [List.mapM_cons] at h
          obtain ⟨item, _, h⟩ := Option.bind_eq_some_iff.mp h
          obtain ⟨items, _, h⟩ := Option.bind_eq_some_iff.mp h
          cases h
    · rintro rfl
      rfl
  have hsome := @readRows_isSome (Tencent.readRow floatText) rows
  have hfound : (∀ other, s.shadow = some other →
      (readRows (Tencent.readRow floatText) other).getD [] =
        (readRows (Tencent.readRow floatText) rows).getD []) ↔
      (readRows (Tencent.readRow floatText) (s.shadow.getD rows)).getD [] =
        (readRows (Tencent.readRow floatText) rows).getD [] := by
    cases s.shadow <;> simp
  rw [s.envelopeOf_value, hread]
  unfold Yields
  rw [hfound]
  generalize (readRows (Tencent.readRow floatText) (s.shadow.getD rows)).getD [] = found
  cases hrows : readRows (Tencent.readRow floatText) rows with
  | none =>
      rw [hrows] at hsome
      have hbad : ∃ row ∈ rows, (Tencent.readRow floatText row).isSome = false := by
        by_contra hall
        refine absurd (hsome.mpr fun row hrow => ?_) (by simp)
        by_contra hnone
        exact hall ⟨row, hrow, by simpa using hnone⟩
      have hne : rows ≠ [] := by
        obtain ⟨row, hrow, _⟩ := hbad
        exact List.ne_nil_of_mem hrow
      rw [Option.map_eq_none_iff, Option.getD_none]
      constructor
      · intro h
        split at h
        · rename_i hrefused
          exact ⟨List.isEmpty_iff.mp hrefused.2, fun hnil => absurd hnil hne, fun _ => hrefused.1⟩
        · cases h
      · rintro ⟨rfl, _, hpositive⟩
        exact if_pos ⟨hpositive hbad, rfl⟩
  | some items =>
      rw [hrows] at hsome hempty
      have hgood : ¬ ∃ row ∈ rows, (Tencent.readRow floatText row).isSome = false := by
        rintro ⟨row, hrow, hbad⟩
        rw [hsome.mp rfl row hrow] at hbad
        cases hbad
      rw [Option.getD_some]
      constructor
      · intro h
        split at h
        · cases h
        · rename_i hgoes
          obtain rfl : found = items := Option.some.inj h
          refine ⟨rfl, fun hnil => ?_, fun hbad => absurd hbad hgood⟩
          obtain rfl : found = [] := Option.some.inj (hempty.mpr hnil)
          by_contra hpositive
          exact hgoes ⟨Nat.pos_of_ne_zero hpositive, rfl⟩
      · rintro ⟨rfl, htotal, _⟩
        rw [if_neg]
        · rfl
        · rintro ⟨hpositive, hnil⟩
          have hzero := htotal (hempty.mp (congrArg some (List.isEmpty_iff.mp hnil)))
          omega

/-- A page envelope yields the listed rows, or an error where one cannot be read, exactly when
nothing that reads otherwise comes before them and, at Aliyun, every row reads; at Tencent the
total has to tell an empty page from one that does not read. -/
theorem page_envelopes_yield_iff (fromSlice : Body → Option Value) (floatText : UInt64 → String)
    (body : Body) :
    (∀ (s : Aliyun.ListResponse) (rows : List Value), fromSlice body = some (s.value rows) →
      ((Aliyun.parsePageEnvelope fromSlice body).map Aliyun.PageEnvelope.items =
          readRows Aliyun.readRow rows ↔ s.Yields rows)) ∧
    ∀ (s : Tencent.ListResponse) (rows : List Value), fromSlice body = some (s.value rows) →
      ((Tencent.parsePageEnvelope floatText fromSlice body).map Prod.fst =
          readRows (Tencent.readRow floatText) rows ↔ s.Yields floatText rows) := by
  constructor
  · intro s rows hbody
    unfold Aliyun.parsePageEnvelope
    rw [hbody]
    exact s.yields_iff rows
  · intro s rows hbody
    unfold Tencent.parsePageEnvelope
    rw [hbody]
    exact s.yields_iff floatText rows

namespace Aliyun

/-- The list of instances, next to the features of the account. -/
def ListResponse.instances : ListResponse where
  before := [("Features", .object [("Feature", .array [.string "ipv6"])])]
  wrapper := "Instances"
  innerBefore := []
  list := "Instance"
  innerAfter := []
  after := [("TotalCount", .number (.int 1))]
  ordered := by decide
  wraps_one := by simp

/-- The list of load balancers, next to the tags of the account: nothing comes before it. -/
def ListResponse.balancers : ListResponse where
  before := [("IsTruncated", .bool false)]
  wrapper := "LoadBalancers"
  innerBefore := []
  list := "LoadBalancer"
  innerAfter := []
  after := [("Tags", .object [("Tag", .array [.string "prod"])]), ("TotalCount", .number (.int 1))]
  ordered := by decide
  wraps_one := by simp

end Aliyun

/-- A field that sorts before the list empties the page. -/
theorem features_hide_instances :
    readRows Aliyun.readRow [.object [("InstanceId", .string "i-1")]] =
        some [⟨"i-1", none, none, none, none⟩] ∧
      (Aliyun.parsePageEnvelope
          (fun _ => some (Aliyun.ListResponse.instances.value
            [.object [("InstanceId", .string "i-1")]])) []).map Aliyun.PageEnvelope.items =
        some [] := by
  constructor <;> rfl

/-- A list that nothing comes before is read in full. -/
theorem page_envelopes_yield_balancers :
    (Aliyun.parsePageEnvelope
        (fun _ => some (Aliyun.ListResponse.balancers.value
          [.object [("LoadBalancerId", .string "lb-1")]])) []).map Aliyun.PageEnvelope.items =
      readRows Aliyun.readRow [.object [("LoadBalancerId", .string "lb-1")]] := by
  refine ((page_envelopes_yield_iff _ (fun _ => "") []).1 Aliyun.ListResponse.balancers
    [.object [("LoadBalancerId", .string "lb-1")]] rfl).mpr ⟨?_, ?_⟩
  · simp [Aliyun.readRow, Value.asObject]
  · intro other h
    cases h

end NextInfra
