import RoutineFlow.Inputs
import RoutineFlow.Proofs.Literals
import RoutineFlow.Proofs.Splitting
import RoutineFlow.Proofs.Trimming

/-!
Inputs can be given as pairs between commas. Pairs that are written so are read back, whatever blanks and items without a
key or value stand between them, and all that is ever read can be written so.
-/

namespace RoutineFlow

namespace Text

variable {mark : Char} {cs a b : List Char}

theorem cutAt_eq_some_iff : cutAt mark cs = some (a, b) ↔ cs = a ++ mark :: b ∧ mark ∉ a := by
  induction cs generalizing a with
  | nil => simp [cutAt]
  | cons c cs ih =>
    by_cases hc : c = mark
    · subst hc
      rw [cutAt, if_pos rfl]
      cases a with
      | nil => simp
      | cons d a =>
        simp only [Option.some.injEq, Prod.mk.injEq, List.cons_append, List.cons.injEq, List.mem_cons, not_or]
        constructor
        · rintro ⟨h, -⟩
          cases h
        · rintro ⟨⟨hd, -⟩, hne, -⟩
          exact absurd hd hne
    · rw [cutAt, if_neg hc, Option.map_eq_some_iff]
      constructor
      · rintro ⟨⟨a', b'⟩, hcut, hab⟩
        cases hab
        obtain ⟨rfl, hmark⟩ := ih.mp hcut
        refine ⟨rfl, ?_⟩
        rw [List.mem_cons, not_or]
        exact ⟨Ne.symm hc, hmark⟩
      · rintro ⟨heq, hmark⟩
        cases a with
        | nil => exact absurd (List.cons.inj heq).1 hc
        | cons d a =>
          obtain ⟨rfl, hrest⟩ := List.cons.inj heq
          rw [List.mem_cons, not_or] at hmark
          exact ⟨(a, b), ih.mpr ⟨hrest, hmark.2⟩, rfl⟩

theorem cutAt_append (h : mark ∉ a) : cutAt mark (a ++ mark :: b) = some (a, b) :=
  cutAt_eq_some_iff.mpr ⟨rfl, h⟩

theorem cutAt_eq_none (h : mark ∉ cs) : cutAt mark cs = none := by
  cases hcut : cutAt mark cs with
  | none => rfl
  | some parts =>
    obtain ⟨rfl, -⟩ := cutAt_eq_some_iff.mp hcut
    simp at h

end Text

namespace Inputs

open Text (Blank Trimmed trim join split cutAt isBlank)

variable {item key value : List Char} {items : List (List Char)} {pair : String × String}
  {pairs : List (String × String)}

/-- What can stand for a key or a value: something without blanks at its ends, and without a comma. -/
structure Clean (cs : List Char) : Prop where
  ne_nil : cs ≠ []
  trimmed : Trimmed cs
  no_comma : ',' ∉ cs

structure CleanPair (pair : String × String) : Prop where
  key : Clean pair.1.toList
  value : Clean pair.2.toList
  no_colon : ':' ∉ pair.1.toList

/-- An item says nothing without a colon, and if a side of its first colon is blank. -/
structure Incomplete (item : List Char) : Prop where
  no_comma : ',' ∉ item
  blank : ':' ∈ item → ∃ key value, item = key ++ ':' :: value ∧ ':' ∉ key ∧ (Blank key ∨ Blank value)

/-- Items between commas that spell pairs, with blanks around the keys and values, and with incomplete items in
between. -/
inductive Spells : List (List Char) → List (String × String) → Prop
  | nil : Spells [] []
  | pair {pair : String × String} {before behind ahead after : List Char} {items : List (List Char)}
      {pairs : List (String × String)} : Blank before → Blank behind → Blank ahead → Blank after →
      Spells items pairs →
      Spells ((before ++ pair.1.toList ++ behind ++ ':' :: (ahead ++ pair.2.toList ++ after)) :: items)
        (pair :: pairs)
  | skip {item : List Char} {items : List (List Char)} {pairs : List (String × String)} :
      Incomplete item → Spells items pairs → Spells (item :: items) pairs

def mapping (pairs : List (String × String)) : Environment :=
  Environment.ofNamed (Mapping.mapValues .str pairs)

/-- The pairs without blanks. -/
def plainItems (pairs : List (String × String)) : List (List Char) :=
  pairs.map fun pair => pair.1.toList ++ ':' :: pair.2.toList

section Item

theorem pair?_of_not_mem (h : ':' ∉ item) : pair? item = none := by
  have hcut : cutAt ':' (trim item) = none := Text.cutAt_eq_none fun hmem => h (Text.mem_of_mem_trim hmem)
  rw [pair?, hcut]

theorem trim_item (key value : List Char) :
    ∃ key' value', trim (key ++ ':' :: value) = key' ++ ':' :: value' ∧ trim key = trim key' ∧
      trim value = trim value' ∧ ∀ c ∈ key', c ∈ key := by
  obtain ⟨before, hbefore, hkey, hhead⟩ := Text.exists_trimLeft key
  obtain ⟨after, hafter, hreverse, hlast⟩ := Text.exists_trimLeft value.reverse
  generalize Text.trimLeft key = key' at hkey hhead
  generalize Text.trimLeft value.reverse = rest at hreverse hlast
  have hvalue : value = rest.reverse ++ after.reverse := by
    rw [← List.reverse_append, ← hreverse, List.reverse_reverse]
  have hcore : Trimmed (key' ++ ':' :: rest.reverse) := by
    constructor
    · intro c hc
      cases key' with
      | nil =>
        cases hc
        rfl
      | cons d key' => exact hhead c hc
    · intro c hc
      cases rest with
      | nil =>
        simp only [List.reverse_nil, List.getLast?_concat, Option.mem_some_iff] at hc
        rw [← hc]
        rfl
      | cons d rest =>
        rw [List.reverse_cons, ← List.cons_append, ← List.append_assoc, List.getLast?_concat] at hc
        exact hlast c hc
  refine ⟨key', rest.reverse, ?_, ?_, ?_, ?_⟩
  · have houter : key ++ ':' :: value = before ++ (key' ++ ':' :: rest.reverse) ++ after.reverse := by
      rw [hkey, hvalue]
      simp
    rw [houter, Text.trim_append hbefore hafter.reverse hcore]
  · rw [hkey]
    simpa using Text.trim_blanks hbefore Text.blank_nil key'
  · rw [hvalue]
    simpa using Text.trim_blanks Text.blank_nil hafter.reverse rest.reverse
  · intro c hc
    rw [hkey]
    exact List.mem_append_right before hc

theorem pair?_append (h : ':' ∉ key) :
    pair? (key ++ ':' :: value) = if trim key = [] ∨ trim value = [] then none
      else some (.text (String.ofList (trim key)), .str (String.ofList (trim value))) := by
  obtain ⟨key', value', htrim, hkey, hvalue, hsubset⟩ := trim_item key value
  have hcut : cutAt ':' (key' ++ ':' :: value') = some (key', value') :=
    Text.cutAt_append fun hmem => h (hsubset _ hmem)
  simp only [pair?, htrim, hcut, hkey, hvalue, Bool.or_eq_true, List.isEmpty_iff]

theorem pair?_of_cleanPair {before behind ahead after : List Char} (hpair : CleanPair pair) (hbefore : Blank before)
    (hbehind : Blank behind) (hahead : Blank ahead) (hafter : Blank after) :
    pair? (before ++ pair.1.toList ++ behind ++ ':' :: (ahead ++ pair.2.toList ++ after)) =
      some (.text pair.1, .str pair.2) := by
  have hcolon : ':' ∉ before ++ pair.1.toList ++ behind := by
    have hfront : ':' ∉ before := hbefore.not_mem rfl
    have hback : ':' ∉ behind := hbehind.not_mem rfl
    simp [hfront, hback, hpair.no_colon]
  have hkey := Text.trim_append hbefore hbehind hpair.key.trimmed
  have hvalue := Text.trim_append hahead hafter hpair.value.trimmed
  rw [pair?_append hcolon, hkey, hvalue, if_neg (not_or.mpr ⟨hpair.key.ne_nil, hpair.value.ne_nil⟩)]
  simp

theorem pair?_of_incomplete (h : Incomplete item) : pair? item = none := by
  by_cases hcolon : ':' ∈ item
  · obtain ⟨key, value, rfl, hkey, hblank⟩ := h.blank hcolon
    rw [← Text.trim_eq_nil_iff, ← Text.trim_eq_nil_iff] at hblank
    rw [pair?_append hkey, if_pos hblank]
  · exact pair?_of_not_mem hcolon

theorem exists_cleanPair {entry : Key × Value} (hcomma : ',' ∉ item) (h : pair? item = some entry) :
    ∃ pair : String × String, (.text pair.1, .str pair.2) = entry ∧ CleanPair pair := by
  by_cases hcolon : ':' ∈ item
  · obtain ⟨key, value, rfl, hkey⟩ := List.eq_append_cons_of_mem hcolon
    rw [pair?_append hkey] at h
    split at h
    · cases h
    · rename_i hne
      rw [not_or] at hne
      have hclean {cs : List Char} (hcs : ∀ c ∈ cs, c ∈ key ++ ':' :: value) (hne : trim cs ≠ []) :
          Clean (String.ofList (trim cs)).toList := by
        rw [String.toList_ofList]
        refine ⟨hne, Text.trimmed_trim cs, ?_⟩
        intro hmem
        exact hcomma (hcs _ (Text.mem_of_mem_trim hmem))
      refine ⟨(String.ofList (trim key), String.ofList (trim value)), Option.some.inj h, ?_, ?_, ?_⟩
      · apply hclean _ hne.1
        intro c hc
        exact List.mem_append_left _ hc
      · apply hclean _ hne.2
        intro c hc
        exact List.mem_append_right _ (List.mem_cons_of_mem _ hc)
      · rw [String.toList_ofList]
        exact fun hmem => hkey (Text.mem_of_mem_trim hmem)
  · rw [pair?_of_not_mem hcolon] at h
    cases h

end Item

section List

theorem Spells.no_comma (h : Spells items pairs) (hpairs : ∀ pair ∈ pairs, CleanPair pair) :
    ∀ item ∈ items, ',' ∉ item := by
  induction h with
  | nil => simp
  | pair hbefore hbehind hahead hafter _ ih =>
    rw [List.forall_mem_cons] at hpairs ⊢
    refine ⟨?_, ih hpairs.2⟩
    have hblank {cs : List Char} (h : Blank cs) : ',' ∉ cs := h.not_mem rfl
    simp [hblank hbefore, hblank hbehind, hblank hahead, hblank hafter, hpairs.1.key.no_comma, hpairs.1.value.no_comma]
  | skip hitem _ ih =>
    rw [List.forall_mem_cons]
    exact ⟨hitem.no_comma, ih hpairs⟩

theorem Spells.filterMap (h : Spells items pairs) (hpairs : ∀ pair ∈ pairs, CleanPair pair) :
    items.filterMap pair? = mapping pairs := by
  induction h with
  | nil => rfl
  | pair hbefore hbehind hahead hafter _ ih =>
    rw [List.forall_mem_cons] at hpairs
    rw [List.filterMap_cons_some (pair?_of_cleanPair hpairs.1 hbefore hbehind hahead hafter), ih hpairs.2]
    rfl
  | skip hitem _ ih => rw [List.filterMap_cons_none (pair?_of_incomplete hitem), ih hpairs]

theorem spells_plainItems (pairs : List (String × String)) : Spells (plainItems pairs) pairs := by
  have hnil := Text.blank_nil
  induction pairs with
  | nil => exact .nil
  | cons pair pairs ih => simpa [plainItems] using Spells.pair hnil hnil hnil hnil ih

theorem split_items (items : List (List Char)) (h : ∀ item ∈ items, ',' ∉ item) :
    (split [','] (join [','] items)).filterMap pair? = items.filterMap pair? := by
  by_cases hne : items = []
  · rw [hne]
    rfl
  · rw [Text.split_join hne h]

theorem Spells.ofText (h : Spells items pairs) (hpairs : ∀ pair ∈ pairs, CleanPair pair)
    (hkeys : (pairs.map Prod.fst).Nodup) : ofText (String.ofList (join [','] items)) = mapping pairs := by
  have hdistinct : (Mapping.keys (Mapping.mapValues Value.str pairs)).Nodup := by
    rw [Mapping.keys_mapValues]
    exact hkeys
  rw [Inputs.ofText, String.toList_ofList, split_items items (h.no_comma hpairs), h.filterMap hpairs]
  exact Json.ofEntries_ofNamed hdistinct

theorem mapping_ofEntries (pairs : List (String × String)) :
    Mapping.ofEntries (mapping pairs) = mapping (Mapping.ofEntries pairs) := by
  have hmerge := Json.merge_ofNamed [] (Mapping.mapValues Value.str pairs)
  rw [mapping, Mapping.ofEntries, mapping, Mapping.ofEntries, Mapping.mapValues_merge]
  exact hmerge

theorem exists_pairs (text : String) :
    ∃ pairs, ofText text = mapping pairs ∧ (pairs.map Prod.fst).Nodup ∧ ∀ pair ∈ pairs, CleanPair pair := by
  have hcomma : ∀ item ∈ split [','] text.toList, ',' ∉ item := by
    intro item hitem hmem
    apply Text.not_infix_of_mem_split (by simp) hitem
    rwa [List.singleton_infix_iff]
  have hentries : ∀ entry ∈ (split [','] text.toList).filterMap pair?,
      ∃ pair : String × String, (.text pair.1, .str pair.2) = entry ∧ CleanPair pair := by
    intro entry hentry
    obtain ⟨item, hitem, hpair⟩ := List.mem_filterMap.mp hentry
    exact exists_cleanPair (hcomma item hitem) hpair
  obtain ⟨written, hwritten, hclean⟩ := Expr.exists_map_eq hentries
  have hmapping : mapping written = (split [','] text.toList).filterMap pair? := by
    rw [← hwritten, mapping, Mapping.mapValues, Environment.ofNamed, List.map_map]
    rfl
  refine ⟨Mapping.ofEntries written, ?_, ?_, ?_⟩
  · rw [ofText, ← hmapping, mapping_ofEntries]
  · have hnil : Mapping.Distinct ([] : Mapping String String) := List.Pairwise.nil
    have hdistinct := Mapping.distinct_merge hnil written
    apply hdistinct.imp
    intro name name' hne
    exact ne_of_beq_false hne
  · intro pair hpair
    rcases Mapping.mem_of_mem_merge hpair with hpair | hpair
    · cases hpair
    · exact hclean pair hpair

end List

/-- Clean pairs are read back from every spelling, and what is read from any text are clean pairs. -/
theorem pairs_read_back :
    (∀ pairs items, (pairs.map Prod.fst).Nodup → (∀ pair ∈ pairs, CleanPair pair) → Spells items pairs →
      ofText (String.ofList (join [','] items)) = mapping pairs) ∧
    ∀ text, ∃ pairs, ofText text = mapping pairs ∧ (pairs.map Prod.fst).Nodup ∧ (∀ pair ∈ pairs, CleanPair pair) ∧
      ofText (String.ofList (join [','] (plainItems pairs))) = mapping pairs := by
  constructor
  · intro pairs items hkeys hpairs h
    exact h.ofText hpairs hkeys
  · intro text
    obtain ⟨pairs, hread, hkeys, hpairs⟩ := exists_pairs text
    exact ⟨pairs, hread, hkeys, hpairs, (spells_plainItems pairs).ofText hpairs hkeys⟩

theorem clean_of_forall {cs : List Char} (hne : cs ≠ []) (h : ∀ c ∈ cs, isBlank c = false ∧ c ≠ ',') :
    Clean cs where
  ne_nil := hne
  trimmed := Text.trimmed_of_forall fun c hc => (h c hc).1
  no_comma hmem := (h _ hmem).2 rfl

/-- The site and the port, among items without a key, without a value and without a colon. -/
def scattered : List (List Char) :=
  [" site :\u00a0a:b ".toList, [], "\u3000:lost".toList, "port:80\t".toList, "empty: ".toList, "note".toList]

theorem scattered_read_back :
    (∀ pair ∈ [("site", "a:b"), ("port", "80")], CleanPair pair) ∧
      Spells scattered [("site", "a:b"), ("port", "80")] ∧
      ofText " site :\u00a0a:b ,,\u3000:lost,port:80\t,empty: ,note" = mapping [("site", "a:b"), ("port", "80")] := by
  have hsite : CleanPair ("site", "a:b") :=
    ⟨clean_of_forall (by decide) (by simp [isBlank]), clean_of_forall (by decide) (by simp [isBlank]), by decide⟩
  have hport : CleanPair ("port", "80") :=
    ⟨clean_of_forall (by decide) (by simp [isBlank]), clean_of_forall (by decide) (by simp [isBlank]), by decide⟩
  have hpairs : ∀ pair ∈ [("site", "a:b"), ("port", "80")], CleanPair pair :=
    List.forall_mem_cons.mpr ⟨hsite, List.forall_mem_singleton.mpr hport⟩
  have hblank : Blank [' '] ∧ Blank ['\t'] ∧ Blank ['\u00a0'] ∧ Blank ['\u3000'] := by
    simp [Blank, isBlank]
  have hnothing : Incomplete [] := ⟨by decide, fun h => by cases h⟩
  have hlost : Incomplete "\u3000:lost".toList :=
    ⟨by decide, fun _ => ⟨['\u3000'], "lost".toList, rfl, by decide, .inl hblank.2.2.2⟩⟩
  have hempty : Incomplete "empty: ".toList :=
    ⟨by decide, fun _ => ⟨"empty".toList, [' '], rfl, by decide, .inr hblank.1⟩⟩
  have hnote : Incomplete "note".toList := ⟨by decide, fun h => absurd h (by decide)⟩
  have hspells : Spells scattered [("site", "a:b"), ("port", "80")] := by
    have hend : Spells ["empty: ".toList, "note".toList] [] := .skip hempty (.skip hnote .nil)
    have hlater : Spells ["port:80\t".toList, "empty: ".toList, "note".toList] [("port", "80")] :=
      @Spells.pair ("port", "80") [] [] [] ['\t'] _ _ Text.blank_nil Text.blank_nil Text.blank_nil hblank.2.1 hend
    exact @Spells.pair ("site", "a:b") [' '] [' '] ['\u00a0'] [' '] _ _ hblank.1 hblank.1 hblank.2.2.1 hblank.1
      (.skip hnothing (.skip hlost hlater))
  have htext : " site :\u00a0a:b ,,\u3000:lost,port:80\t,empty: ,note" =
      String.ofList (join [','] scattered) := rfl
  rw [htext]
  exact ⟨hpairs, hspells, pairs_read_back.1 _ _ (by decide) hpairs hspells⟩

end Inputs

end RoutineFlow
