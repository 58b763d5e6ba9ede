import NextInfra.Core.Text
import NextInfra.Query.Freshness

/-!
# What a text search finds

The text of a search is lower-cased and escaped by the code, the columns are lower-cased by
SQLite. An escaped text has no wildcards left: the pattern `%text%` passes the columns that
contain the text, in the letters `LOWER` leaves them (`like_contains_iff`).

The two sides do not lower-case alike. `str::to_lowercase` knows all letters and `LOWER` knows
those of ASCII, so a column is passed over where each place of the text in it has a capital
outside ASCII.
-/

namespace NextInfra

open Sql Text

/-! ## §1  Escaped patterns -/

/-- A character as `escape_like` writes it. -/
def escaped (c : Char) : List Char :=
  if c = '\\' ∨ c = '%' ∨ c = '_' then ['\\', c] else [c]

/-- Replacing one character after the other escapes each character by itself: the backslashes
that are put in are never replaced. -/
theorem escapeLike_toList (value : String) :
    (escapeLike value).toList = value.toList.flatMap escaped := by
  have hone : ∀ c : Char, (replaceChar '_' ['\\', '_'] (replaceChar '%' ['\\', '%']
      (replaceChar '\\' ['\\', '\\'] [c]))) = escaped c := by
    intro c
    by_cases hslash : c = '\\'
    · subst hslash
      rfl
    by_cases hpercent : c = '%'
    · subst hpercent
      rfl
    by_cases hbar : c = '_'
    · subst hbar
      rfl
    simp [replaceChar, escaped, hslash, hpercent, hbar]
  unfold escapeLike
  rw [String.toList_ofList]
  induction value.toList with
  | nil => rfl
  | cons c text ih =>
      rw [List.flatMap_cons, ← ih, ← hone c]
      simp [replaceChar]

/-- An escaped character stands for itself, whatever it is. -/
theorem likeChars_escaped_cons (c : Char) (pattern text : List Char) :
    likeChars (escaped c ++ pattern) text = true ↔
      ∃ d rest, text = d :: rest ∧ d.toLower = c.toLower ∧ likeChars pattern rest = true := by
  have hnil : likeChars (escaped c ++ pattern) [] = false := by
    by_cases hspecial : c = '\\' ∨ c = '%' ∨ c = '_'
    · unfold escaped
      rw [if_pos hspecial]
      rfl
    · unfold escaped
      rw [if_neg hspecial]
      push Not at hspecial
      show likeChars (c :: pattern) [] = _
      rw [likeChars] <;> simp [hspecial]
  have hcons : ∀ d rest, likeChars (escaped c ++ pattern) (d :: rest) =
      (c.toLower == d.toLower && likeChars pattern rest) := by
    intro d rest
    by_cases hspecial : c = '\\' ∨ c = '%' ∨ c = '_'
    · unfold escaped
      rw [if_pos hspecial]
      rfl
    · unfold escaped
      rw [if_neg hspecial]
      push Not at hspecial
      show likeChars (c :: pattern) (d :: rest) = _
      rw [likeChars] <;> simp [hspecial]
  cases text with
  | nil => simp [hnil]
  | cons d rest =>
      rw [hcons, Bool.and_eq_true, beq_iff_eq]
      constructor
      · rintro ⟨hcase, hrest⟩
        exact ⟨d, rest, rfl, hcase.symm, hrest⟩
      · rintro ⟨d', rest', heq, hcase, hrest⟩
        obtain ⟨rfl, rfl⟩ := List.cons.inj heq
        exact ⟨hcase.symm, hrest⟩

/-- An escaped text stands for itself, in either case of the ASCII letters. -/
theorem likeChars_escaped (value pattern text : List Char) :
    likeChars (value.flatMap escaped ++ pattern) text = true ↔
      ∃ found rest, text = found ++ rest ∧ found.map Char.toLower = value.map Char.toLower ∧
        likeChars pattern rest = true := by
  induction value generalizing text with
  | nil =>
      constructor
      · exact fun h => ⟨[], text, rfl, rfl, h⟩
      · rintro ⟨found, rest, rfl, hfound, h⟩
        obtain rfl := List.map_eq_nil_iff.mp hfound
        exact h
  | cons c value ih =>
      rw [List.flatMap_cons, List.append_assoc, likeChars_escaped_cons]
      constructor
      · rintro ⟨d, tail, rfl, hcase, htail⟩
        obtain ⟨found, rest, rfl, hfound, hrest⟩ := (ih tail).mp htail
        exact ⟨d :: found, rest, rfl, by rw [List.map_cons, List.map_cons, hcase, hfound], hrest⟩
      · rintro ⟨found, rest, rfl, hfound, hrest⟩
        cases found with
        | nil => cases hfound
        | cons d found =>
            obtain ⟨hcase, hfound⟩ := List.cons.inj hfound
            exact ⟨d, found ++ rest, rfl, hcase, (ih _).mpr ⟨found, rest, rfl, hfound, hrest⟩⟩

theorem likeChars_percent (pattern text : List Char) :
    likeChars ('%' :: pattern) text = true ↔
      ∃ rest, rest <:+ text ∧ likeChars pattern rest = true := by
  rw [likeChars, List.any_eq_true]
  simp only [List.mem_tails]

/-- The pattern `%value` with more behind it passes the texts that contain the value with what the
rest of the pattern passes behind it. -/
theorem likeChars_contains_iff (value rest text : List Char) :
    likeChars ('%' :: (value.flatMap escaped ++ rest)) text = true ↔
      ∃ before found after, text = before ++ found ++ after ∧
        found.map Char.toLower = value.map Char.toLower ∧ likeChars rest after = true := by
  rw [likeChars_percent]
  constructor
  · rintro ⟨tail, ⟨before, rfl⟩, htail⟩
    obtain ⟨found, after, rfl, hfound, hafter⟩ := (likeChars_escaped _ _ _).mp htail
    exact ⟨before, found, after, (List.append_assoc _ _ _).symm, hfound, hafter⟩
  · rintro ⟨before, found, after, rfl, hfound, hafter⟩
    refine ⟨found ++ after, ⟨before, (List.append_assoc _ _ _).symm⟩, ?_⟩
    exact (likeChars_escaped _ _ _).mpr ⟨found, after, rfl, hfound, hafter⟩

/-- Lower-casing moves no NUL. -/
theorem cText_lower (column : String) :
    cText (lower column).toList = (cText column.toList).map Char.toLower := by
  have hnul : ((· != '\x00') ∘ Char.toLower) = (· != '\x00') := by
    funext c
    rw [Function.comp_apply, Bool.eq_iff_iff, bne_iff_ne, bne_iff_ne, Ne, Ne,
      toLower_eq_iff (by decide)]
  unfold cText lower
  rw [String.toList_map, List.takeWhile_map, hnul]

theorem cText_of_notMem {text : List Char} (h : '\x00' ∉ text) : cText text = text :=
  List.takeWhile_eq_self_iff.mpr fun c hc => by
    rw [bne_iff_ne]
    exact fun heq => h (heq ▸ hc)

/-- Escaping puts in no NUL and takes none out. -/
theorem cText_escaped (value : List Char) :
    cText (value.flatMap escaped ++ ['%']) =
      (cText value).flatMap escaped ++ if '\x00' ∈ value then [] else ['%'] := by
  induction value with
  | nil => decide
  | cons c value ih =>
      have hpiece : c ≠ '\x00' → ∀ d ∈ escaped c, (d != '\x00') = true := by
        intro hc d hd
        unfold escaped at hd
        split at hd
        · rcases List.mem_cons.mp hd with rfl | hd
          · decide
          · rw [List.mem_singleton.mp hd]
            simpa using hc
        · rw [List.mem_singleton.mp hd]
          simpa using hc
      by_cases hc : c = '\x00'
      · subst hc
        simp [cText, escaped]
      · have hmem : '\x00' ∈ c :: value ↔ '\x00' ∈ value := by simp [Ne.symm hc]
        unfold cText at ih ⊢
        rw [List.flatMap_cons, List.append_assoc, List.takeWhile_append_of_pos (hpiece hc), ih,
          List.takeWhile_cons_of_pos (by simpa using hc), List.flatMap_cons, List.append_assoc]
        simp only [hmem]

/-- `LIKE` on a lower-cased column: what SQLite reads of the value stands in what it reads of the
column, in the letters `LOWER` leaves. A NUL in the value hides the last wildcard. -/
theorem like_contains_iff {value : String} (column : String)
    (hlower : ∀ c ∈ value.toList, c.toLower = c) :
    like ("%" ++ escapeLike value ++ "%") (lower column) = true ↔
      ∃ before found after, cText column.toList = before ++ found ++ after ∧
        found.map Char.toLower = cText value.toList ∧
        ('\x00' ∈ value.toList → after = []) := by
  have hpattern : cText ("%" ++ escapeLike value ++ "%").toList =
      '%' :: ((cText value.toList).flatMap escaped ++
        if '\x00' ∈ value.toList then [] else ['%']) := by
    rw [String.toList_append, String.toList_append, escapeLike_toList, List.append_assoc]
    show '%' :: cText (value.toList.flatMap escaped ++ ['%']) = _
    rw [cText_escaped]
  have hread : (cText value.toList).map Char.toLower = cText value.toList := by
    refine (List.map_congr_left fun c hc => ?_).trans (List.map_id _)
    exact hlower c ((List.takeWhile_sublist _).subset hc)
  have hrest : ∀ after : List Char,
      likeChars (if '\x00' ∈ value.toList then [] else ['%']) after = true ↔
        ('\x00' ∈ value.toList → after = []) := by
    intro after
    by_cases hnul : '\x00' ∈ value.toList
    · rw [if_pos hnul]
      cases after with
      | nil => exact iff_of_true rfl fun _ => rfl
      | cons c after => exact iff_of_false (by simp [likeChars]) fun h => by cases h hnul
    · rw [if_neg hnul]
      exact iff_of_true ((likeChars_percent [] after).mpr ⟨[], List.nil_suffix, rfl⟩)
        fun h => absurd h hnul
  unfold like
  rw [hpattern, cText_lower, likeChars_contains_iff, hread]
  simp only [hrest]
  constructor
  · rintro ⟨before, found, after, hsplit, hfound, hafter⟩
    obtain ⟨front, after, hread, hfront, rfl⟩ := List.map_eq_append_iff.mp hsplit
    obtain ⟨before, found, rfl, -, rfl⟩ := List.map_eq_append_iff.mp hfront
    refine ⟨before, found, after, hread, ?_, fun h => List.map_eq_nil_iff.mp (hafter h)⟩
    rw [List.map_map] at hfound
    rw [← hfound]
    exact List.map_congr_left fun c _ => (toLower_toLower c).symm
  · rintro ⟨before, found, after, hsplit, hfound, hafter⟩
    refine ⟨before.map Char.toLower, found.map Char.toLower, after.map Char.toLower, ?_, ?_,
      fun h => by rw [hafter h]; rfl⟩
    · rw [hsplit, List.map_append, List.map_append]
    · rw [hfound, hread]

/-! ## §2  Lower-casing by Unicode -/

/-- The images of the characters of a text, laid end to end. What stands around a character may
choose its image. -/
def imagesFrom (image : List Char → Char → List Char → List Char) :
    List Char → List Char → List Char
  | _, [] => []
  | before, c :: after => image before c after ++ imagesFrom image (before ++ [c]) after

/-- What the standard library says of `str::to_lowercase`: a text is lower-cased character by
character, ASCII as everywhere, and what is lower-cased has no other lower case. -/
structure Lowercases (image : List Char → Char → List Char → List Char)
    (toLowercase : String → String) : Prop where
  pieces : ∀ text, (toLowercase text).toList = imagesFrom image [] text.toList
  ascii : ∀ before c after, c.toNat < 128 → image before c after = [c.toLower]
  stable : ∀ before c after, ∀ d ∈ image before c after,
    ∀ before' after', image before' d after' = [d]
  nul : ∀ before c after, '\x00' ∈ image before c after → c = '\x00'

section

variable {image : List Char → Char → List Char → List Char} {toLowercase : String → String}

theorem mem_imagesFrom {d : Char} {text : List Char} :
    ∀ {before : List Char}, d ∈ imagesFrom image before text →
      ∃ before' c after', c ∈ text ∧ d ∈ image before' c after' := by
  induction text with
  | nil => exact fun h => absurd h List.not_mem_nil
  | cons c text ih =>
      intro before h
      rcases List.mem_append.mp h with h | h
      · exact ⟨before, c, text, List.mem_cons_self, h⟩
      · obtain ⟨before', c', after', hc', hd⟩ := ih h
        exact ⟨before', c', after', List.mem_cons_of_mem _ hc', hd⟩

theorem imagesFrom_append (before front back : List Char) :
    ∃ lead, imagesFrom image before (front ++ back) =
      lead ++ imagesFrom image (before ++ front) back := by
  induction front generalizing before with
  | nil => exact ⟨[], by simp⟩
  | cons c front ih =>
      obtain ⟨lead, hlead⟩ := ih (before ++ [c])
      refine ⟨image before c (front ++ back) ++ lead, ?_⟩
      rw [List.cons_append, imagesFrom, hlead, List.append_assoc, List.append_assoc,
        List.singleton_append]

/-- The character is lower-cased as in ASCII, whatever stands around it. -/
def Plain (image : List Char → Char → List Char → List Char) (c : Char) : Prop :=
  ∀ before after, image before c after = [c.toLower]

theorem imagesFrom_plain {found : List Char} (hplain : ∀ c ∈ found, Plain image c)
    (before after : List Char) :
    imagesFrom image before (found ++ after) =
      found.map Char.toLower ++ imagesFrom image (before ++ found) after := by
  induction found generalizing before with
  | nil => simp
  | cons c found ih =>
      rw [List.cons_append, imagesFrom, hplain c List.mem_cons_self,
        ih fun d hd => hplain d (List.mem_cons_of_mem _ hd)]
      simp

namespace Lowercases

variable (h : Lowercases image toLowercase)
include h

/-- ASCII lower-casing changes nothing that Unicode has lower-cased. -/
theorem lower_fixed (text : String) : ∀ d ∈ (toLowercase text).toList, d.toLower = d := by
  intro d hd
  rw [h.pieces] at hd
  obtain ⟨before, c, after, -, hmem⟩ := mem_imagesFrom hd
  by_cases hascii : d.toNat < 128
  · have himage := h.stable before c after d hmem [] []
    rw [h.ascii [] d [] hascii] at himage
    exact (List.cons.inj himage).1
  · exact toLower_of_not_ascii hascii

theorem nul_notMem {text : String} (hnul : '\x00' ∉ text.toList) :
    '\x00' ∉ (toLowercase text).toList := by
  intro hmem
  rw [h.pieces] at hmem
  obtain ⟨before, c, after, hc, himage⟩ := mem_imagesFrom hmem
  exact hnul (h.nul before c after himage ▸ hc)

/-- A letter whose ASCII lower case is lower case has it by Unicode too. -/
theorem plain_of_mem {c : Char} {text : String} (hc : c.toLower ∈ (toLowercase text).toList) :
    Plain image c := by
  intro before after
  by_cases hascii : c.toNat < 128
  · exact h.ascii before c after hascii
  · rw [h.pieces] at hc
    obtain ⟨before', d, after', -, hd⟩ := mem_imagesFrom hc
    rw [toLower_of_not_ascii hascii] at hd ⊢
    exact h.stable before' d after' c hd before after

/-- A text of plain characters is lower-cased as in ASCII. -/
theorem toLowercase_plain {text : String} (hplain : ∀ c ∈ text.toList, Plain image c) :
    (toLowercase text).toList = text.toList.map Char.toLower := by
  have himages := imagesFrom_plain hplain [] []
  rw [List.append_nil, imagesFrom, List.append_nil] at himages
  rw [h.pieces, himages]

end Lowercases

end

/-! ## §3  The search -/

/-- A searched field of the resource contains the query, both lower-cased. -/
def Mentions (toLowercase : String → String) (r : Resource) (query : String) : Prop :=
  ∃ column ∈ searchedColumns r,
    (toLowercase query).toList <:+: (toLowercase column).toList

/-- What SQLite reads of a searched field has what it reads of the query, in letters that ASCII
lower-cases. Both are read up to a NUL, and where the query has one the field ends behind it. -/
def MentionsPlainly (toLowercase : String → String) (r : Resource) (query : String) : Prop :=
  ∃ column ∈ searchedColumns r, ∃ before found after,
    cText column.toList = before ++ found ++ after ∧
    found.map Char.toLower = cText (toLowercase query).toList ∧
    ('\x00' ∈ (toLowercase query).toList → after = [])

section

variable {image : List Char → Char → List Char → List Char} {toLowercase : String → String}

/-- The clause passes the resources that mention the query plainly: no character of it is a
wildcard. -/
theorem holds_searchClause (h : Lowercases image toLowercase) (query : String) (row : ResourceRow) :
    holds [searchClause toLowercase query] row = true ↔
      MentionsPlainly toLowercase row.1 query := by
  have hclause : holds [searchClause toLowercase query] row = true ↔
      ∃ column ∈ searchedColumns row.1,
        like (searchPattern toLowercase query) (lower column) = true := by
    simp [searchClause, searchedColumns]
  rw [hclause]
  unfold MentionsPlainly searchPattern
  simp only [like_contains_iff _ (h.lower_fixed query)]

/-- What is mentioned plainly is mentioned, by a query without a NUL. -/
theorem MentionsPlainly.mentions (h : Lowercases image toLowercase) {r : Resource} {query : String}
    (hnul : '\x00' ∉ query.toList) (hplain : MentionsPlainly toLowercase r query) :
    Mentions toLowercase r query := by
  obtain ⟨column, hcolumn, before, found, after, hsplit, hfound, -⟩ := hplain
  rw [cText_of_notMem (h.nul_notMem hnul)] at hfound
  refine ⟨column, hcolumn, ?_⟩
  have hletters : ∀ c ∈ found, Plain image c := fun c hc =>
    h.plain_of_mem (hfound ▸ List.mem_map_of_mem hc)
  have hcolumn : column.toList =
      before ++ (found ++ (after ++ column.toList.dropWhile (· != '\x00'))) := by
    rw [← List.append_assoc, ← List.append_assoc, ← hsplit]
    exact List.takeWhile_append_dropWhile.symm
  rw [h.pieces column, hcolumn]
  obtain ⟨lead, hlead⟩ := imagesFrom_append [] before
    (found ++ (after ++ column.toList.dropWhile (· != '\x00')))
  rw [hlead, imagesFrom_plain hletters, hfound, ← List.append_assoc]
  exact ⟨lead, _, rfl⟩

/-- Fields of plain characters mention plainly what they mention. -/
theorem Mentions.plainly (h : Lowercases image toLowercase) {r : Resource} {query : String}
    (hnul : '\x00' ∉ query.toList)
    (hplain : ∀ column ∈ searchedColumns r, ∀ c ∈ column.toList, Plain image c ∧ c ≠ '\x00')
    (hmentions : Mentions toLowercase r query) : MentionsPlainly toLowercase r query := by
  obtain ⟨column, hcolumn, lead, trail, hsplit⟩ := hmentions
  rw [h.toLowercase_plain fun c hc => (hplain column hcolumn c hc).1] at hsplit
  obtain ⟨front, after, htext, hfront, -⟩ := List.map_eq_append_iff.mp hsplit.symm
  obtain ⟨before, found, rfl, -, hfound⟩ := List.map_eq_append_iff.mp hfront
  have hlowered := h.nul_notMem hnul
  refine ⟨column, hcolumn, before, found, after, ?_, ?_, fun hmem => absurd hmem hlowered⟩
  · rw [cText_of_notMem fun hmem => (hplain column hcolumn _ hmem).2 rfl, htext]
  · rw [cText_of_notMem hlowered, hfound]

/-- A search is exact for the resources of a store unless one mentions the query and nowhere
plainly, or the query has a NUL and one has what stands before it at its end. -/
theorem search_exact_iff (h : Lowercases image toLowercase) (s : Store) (query : String) :
    (∀ row ∈ s.resourceRows,
      (holds [searchClause toLowercase query] row = true ↔ Mentions toLowercase row.1 query)) ↔
    (∀ row ∈ s.resourceRows,
      Mentions toLowercase row.1 query → MentionsPlainly toLowercase row.1 query) ∧
    ('\x00' ∈ query.toList → ∀ row ∈ s.resourceRows,
      MentionsPlainly toLowercase row.1 query → Mentions toLowercase row.1 query) := by
  simp only [holds_searchClause h]
  constructor
  · intro hexact
    exact ⟨fun row hrow => (hexact row hrow).mpr, fun _ row hrow => (hexact row hrow).mp⟩
  · rintro ⟨hcomplete, hsound⟩ row hrow
    refine ⟨fun hplain => ?_, hcomplete row hrow⟩
    by_cases hnul : '\x00' ∈ query.toList
    · exact hsound hnul row hrow hplain
    · exact hplain.mentions h hnul

end

/-- `to_lowercase` on texts whose only letter outside ASCII is the U with an umlaut. -/
def umlautLowercase (text : String) : String :=
  text.map fun c => if c = 'Ü' then 'ü' else c.toLower

theorem umlautLowercase_lowercases :
    Lowercases (fun _ c _ => [if c = 'Ü' then 'ü' else c.toLower]) umlautLowercase where
  pieces := by
    intro text
    have hmap : ∀ (before text : List Char),
        imagesFrom (fun _ c _ => [if c = 'Ü' then 'ü' else c.toLower]) before text =
          text.map fun c => if c = 'Ü' then 'ü' else c.toLower := by
      intro before text
      induction text generalizing before with
      | nil => rfl
      | cons c text ih =>
          rw [imagesFrom, ih]
          rfl
    rw [hmap]
    exact String.toList_map
  ascii := by
    intro _ c _ hascii
    rw [if_neg]
    rintro rfl
    revert hascii
    decide
  stable := by
    intro _ c _ d hd _ _
    rw [List.mem_singleton] at hd
    by_cases hc : c = 'Ü'
    · rw [if_pos hc] at hd
      subst hd
      decide
    · rw [if_neg hc] at hd
      have hd' : d ≠ 'Ü' := by
        rintro rfl
        rcases toLower_cases c with hsame | ⟨-, hlast, hlower⟩
        · exact hc (hsame.symm.trans hd.symm)
        · rw [← hd] at hlower
          have : 'Ü'.toNat = 220 := by decide
          omega
      rw [if_neg hd', hd, toLower_toLower]
  nul := by
    intro _ c _ hmem
    rw [List.mem_singleton] at hmem
    by_cases hc : c = 'Ü'
    · rw [if_pos hc] at hmem
      exact absurd hmem (by decide)
    · rw [if_neg hc] at hmem
      exact (toLower_eq_iff (by decide)).mp hmem.symm

/-- A store with one resource, displayed as `Über 100%`. -/
def umlautStore : Store :=
  { Store.fresh with
    connections := KeyedTable.empty.put
      { connectionId := ⟨"lab", trimmed_lab⟩, connectorType := .github, displayName := "lab"
        enabled := true, config := .object [], health := .healthy, lastSuccessAt := none
        lastAttemptAt := none, configSchemaVersion := .one, deletedAt := none }
    resources := KeyedTable.empty.put { longUnseen with displayName := "Über 100%" } }

/-- The per cent sign of a query is looked up as it is. -/
theorem search_exact_percent : umlautStore.resourceRows ≠ [] ∧
    ∀ row ∈ umlautStore.resourceRows,
      (holds [searchClause umlautLowercase "100%"] row = true ↔
        Mentions umlautLowercase row.1 "100%") := by
  refine ⟨by decide +kernel,
    (search_exact_iff umlautLowercase_lowercases umlautStore "100%").mpr ⟨?_, ?_⟩⟩
  · intro row hrow _
    obtain rfl := List.mem_singleton.mp (show row ∈ [_] from hrow)
    exact ⟨"Über 100%", List.mem_cons_self, "Über ".toList, "100%".toList, [],
      by decide, by decide +kernel, fun _ => rfl⟩
  · exact fun hnul => absurd hnul (by decide)

/-- The name of the resource, looked up as it stands, is not found. -/
theorem umlaut_not_found : ¬ ∀ row ∈ umlautStore.resourceRows,
    (holds [searchClause umlautLowercase "Über 100%"] row = true ↔
      Mentions umlautLowercase row.1 "Über 100%") := by
  intro h
  have hmissed := h ({ longUnseen with displayName := "Über 100%" }, .github) (by decide +kernel)
  have hmentions : Mentions umlautLowercase { longUnseen with displayName := "Über 100%" }
      "Über 100%" := ⟨"Über 100%", List.mem_cons_self, List.infix_refl _⟩
  exact absurd (hmissed.mpr hmentions) (by decide +kernel)

end NextInfra
