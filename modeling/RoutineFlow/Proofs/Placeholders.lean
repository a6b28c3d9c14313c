import RoutineFlow.Proofs.Finiteness
import RoutineFlow.Proofs.Likeness

/-!
A template is filled in placeholder by placeholder: no two of them overlap, and what stands outside of them is kept.
-/

namespace RoutineFlow.Template

open Text (isWord)

variable {c : Char} {cs xs rest name name' : List Char} {i j : Nat}

/-- How a placeholder is written. -/
def spelling (name : List Char) : List Char :=
  '$' :: '{' :: (name ++ ['}'])

/-- A placeholder for the name begins at this place. -/
structure StandsAt (cs : List Char) (i : Nat) (name : List Char) : Prop where
  isName : IsName name
  spelled : spelling name <+: cs.drop i

section Place

theorem spelling_append (name rest : List Char) : spelling name ++ rest = '$' :: '{' :: (name ++ '}' :: rest) := by
  simp [spelling]

theorem standsAt_zero_iff : StandsAt cs 0 name ↔ IsName name ∧ ∃ rest, cs = spelling name ++ rest := by
  constructor
  · rintro ⟨hname, rest, hrest⟩
    exact ⟨hname, rest, hrest.symm⟩
  · rintro ⟨hname, rest, rfl⟩
    exact ⟨hname, List.prefix_append _ rest⟩

theorem standsAt_append_iff (xs : List Char) : StandsAt (xs ++ cs) (xs.length + i) name ↔ StandsAt cs i name := by
  constructor
  · rintro ⟨hname, hspelled⟩
    rw [List.drop_length_add_append] at hspelled
    exact ⟨hname, hspelled⟩
  · rintro ⟨hname, hspelled⟩
    refine ⟨hname, ?_⟩
    rwa [List.drop_length_add_append]

theorem opening_eq_some : (if c = '$' then placeholder? cs else none) = some name ↔ StandsAt (c :: cs) 0 name := by
  rw [standsAt_zero_iff]
  split
  · rename_i hc
    rw [placeholder?_eq_some, hc]
    apply and_congr_right
    intro hname
    apply exists_congr
    intro rest
    rw [spelling_append, List.cons.injEq]
    exact (and_iff_right rfl).symm
  · rename_i hc
    constructor
    · intro h
      cases h
    · rintro ⟨-, rest, hrest⟩
      exact absurd (List.cons.inj hrest).1 hc

theorem StandsAt.unique (h : StandsAt cs i name) (h' : StandsAt cs i name') : name = name' := by
  have hstart {name : List Char} (h : StandsAt cs i name) : StandsAt (cs.drop i) 0 name := ⟨h.isName, h.spelled⟩
  cases hcs : cs.drop i with
  | nil =>
    have hspelled := h.spelled
    rw [hcs, spelling] at hspelled
    simp at hspelled
  | cons c rest =>
    have hname := opening_eq_some.mpr (hcs ▸ hstart h)
    have hname' := opening_eq_some.mpr (hcs ▸ hstart h')
    exact Option.some.inj (hname.symm.trans hname')

theorem IsName.dollar_not_mem (h : IsName name) : '$' ∉ '{' :: (name ++ ['}']) := by
  intro hmem
  simp only [List.mem_cons, List.mem_append, List.not_mem_nil, or_false] at hmem
  rcases hmem with hmem | hmem | hmem
  · cases hmem
  · have hword := h.word '$' hmem
    revert hword
    decide
  · cases hmem

/-- Within a placeholder no other one begins. -/
theorem StandsAt.le_of_lt (h : StandsAt cs i name) (h' : StandsAt cs j name') (hij : i < j) :
    i + (spelling name).length ≤ j := by
  by_contra hover
  obtain ⟨k, rfl⟩ : ∃ k, j = i + (k + 1) := ⟨j - i - 1, by omega⟩
  obtain ⟨rest, hrest⟩ := h.spelled
  have hk : k < ('{' :: (name ++ ['}'])).length := by
    simp only [spelling, List.length_cons] at hover ⊢
    omega
  have hdrop : cs.drop (i + (k + 1)) = ('{' :: (name ++ ['}'])).drop k ++ rest := by
    rw [← List.drop_drop, ← hrest, spelling, List.cons_append, List.drop_succ_cons, List.drop_append_of_le_length hk.le]
  -- the other one would begin with a dollar sign, and the first one has no second
  have hspelled := h'.spelled
  rw [hdrop, List.drop_eq_getElem_cons hk, List.cons_append, spelling, List.cons_prefix_cons] at hspelled
  apply h.isName.dollar_not_mem
  rw [hspelled.1]
  exact List.getElem_mem hk

theorem standsAt_of_mentions (h : Mentions cs name) : ∃ i, StandsAt cs i name := by
  obtain ⟨before, after, rfl, hne, hword⟩ := h
  refine ⟨before.length, ⟨hne, hword⟩, ?_⟩
  rw [List.drop_left, ← spelling_append]
  exact List.prefix_append _ after

end Place

section Scan

variable {textOf : List Char → Except Cause (List Char)}

theorem fillBy_skip (textOf : List Char → Except Cause (List Char)) (xs cs : List Char) :
    fillBy textOf xs.length (xs ++ cs) = fillBy textOf 0 cs := by
  induction xs with
  | nil => rfl
  | cons x xs ih => exact ih

theorem fillBy_placeholder (h : IsName name) (cs : List Char) :
    fillBy textOf 0 (spelling name ++ cs) = do return (← textOf name) ++ (← fillBy textOf 0 cs) := by
  have hopening : placeholder? ('{' :: (name ++ '}' :: cs)) = some name := placeholder?_eq_some.mpr ⟨h, cs, rfl⟩
  have hskip : fillBy textOf (name.length + 2) ('{' :: (name ++ '}' :: cs)) = fillBy textOf 0 cs := by
    have hlength : name.length + 2 = ('{' :: (name ++ ['}'])).length := by simp
    rw [hlength, ← fillBy_skip textOf ('{' :: (name ++ ['}'])) cs]
    simp
  rw [spelling_append, fillBy, if_pos rfl, hopening]
  simp only [hskip]

theorem fillBy_kept (h : ∀ name, ¬ StandsAt (c :: cs) 0 name) :
    fillBy textOf 0 (c :: cs) = do return c :: (← fillBy textOf 0 cs) := by
  have hopening : (if c = '$' then placeholder? cs else none) = none := by
    apply Option.eq_none_iff_forall_ne_some.mpr
    intro name hname
    exact h name (opening_eq_some.mp hname)
  rw [fillBy, hopening]

theorem template_induction {motive : List Char → Prop} (nil : motive [])
    (placeholder : ∀ name cs, IsName name → motive cs → motive (spelling name ++ cs))
    (kept : ∀ c cs, (∀ name, ¬ StandsAt (c :: cs) 0 name) → motive cs → motive (c :: cs)) (cs : List Char) :
    motive cs := by
  induction hn : cs.length using Nat.strong_induction_on generalizing cs with
  | _ n ih =>
    cases cs with
    | nil => exact nil
    | cons c cs =>
      by_cases h : ∃ name, StandsAt (c :: cs) 0 name
      · obtain ⟨name, hname⟩ := h
        obtain ⟨hisName, rest, hrest⟩ := standsAt_zero_iff.mp hname
        rw [hrest] at hn ⊢
        apply placeholder name rest hisName
        apply ih rest.length _ rest rfl
        simp only [spelling_append, List.length_cons, List.length_append] at hn
        omega
      · apply kept c cs (not_exists.mp h)
        apply ih cs.length _ cs rfl
        rw [← hn]
        exact Nat.lt_succ_self _

/-- No placeholder has the end of the first part within it. -/
def CutBetween (a b : List Char) : Prop :=
  ∀ i name, StandsAt (a ++ b) i name → a.length ≤ i ∨ i + (spelling name).length ≤ a.length

theorem CutBetween.of_append {a b : List Char} (h : CutBetween (xs ++ a) b) : CutBetween a b := by
  intro i name hname
  have hshift : StandsAt (xs ++ a ++ b) (xs.length + i) name := by
    rw [List.append_assoc, standsAt_append_iff]
    exact hname
  rcases h _ _ hshift with hle | hle
  · left
    rw [List.length_append] at hle
    omega
  · right
    rw [List.length_append] at hle
    omega

theorem CutBetween.not_standsAt {a b : List Char} (h : CutBetween (c :: a) b)
    (hnone : ∀ name, ¬ StandsAt (c :: a) 0 name) : ∀ name, ¬ StandsAt (c :: (a ++ b)) 0 name := by
  intro name hname
  apply hnone name
  refine ⟨hname.isName, ?_⟩
  have hlength : (spelling name).length ≤ (c :: a).length := by
    rcases h 0 name hname with hle | hle
    · simp at hle
    · simpa using hle
  exact List.prefix_of_prefix_length_le hname.spelled (List.prefix_append (c :: a) b) hlength

theorem fillBy_append {b : List Char} (a : List Char) (h : CutBetween a b) :
    fillBy textOf 0 (a ++ b) = do return (← fillBy textOf 0 a) ++ (← fillBy textOf 0 b) := by
  induction a using template_induction with
  | nil =>
    rw [List.nil_append, fillBy]
    cases fillBy textOf 0 b <;> rfl
  | placeholder name a hname ih =>
    rw [List.append_assoc, fillBy_placeholder hname, fillBy_placeholder hname, ih h.of_append]
    simp only [bind_assoc, pure_bind, List.append_assoc]
  | kept c a hnone ih =>
    have hrest : CutBetween a b := @CutBetween.of_append [c] a b h
    rw [List.cons_append, fillBy_kept (h.not_standsAt hnone), fillBy_kept hnone, ih hrest]
    simp only [bind_assoc, pure_bind, List.cons_append]

theorem fillBy_of_not_standsAt (h : ∀ i name, ¬ StandsAt cs i name) : fillBy textOf 0 cs = .ok cs := by
  induction cs with
  | nil => rfl
  | cons c cs ih =>
    have hrest : fillBy textOf 0 cs = .ok cs := by
      apply ih
      intro i name hname
      exact h (1 + i) name ((standsAt_append_iff [c]).mpr hname)
    rw [fillBy_kept (h 0), hrest]
    rfl

end Scan

/-- A template consists of placeholders and of characters that stand for themselves. -/
inductive Part where
  | kept (c : Char)
  | placeholder (name : List Char)

namespace Part

def text : Part → List Char
  | kept c => [c]
  | placeholder name => spelling name

/-- What the part becomes. -/
def filled (texts : List Char → List Char) : Part → List Char
  | kept c => [c]
  | placeholder name => texts name

theorem length_text_pos (p : Part) : 0 < p.text.length := by
  cases p <;> simp [text, spelling]

end Part

/-- A placeholder for the name is the part that begins at this place. -/
def PlacedAt (parts : List Part) (i : Nat) (name : List Char) : Prop :=
  ∃ before after, parts = before ++ .placeholder name :: after ∧ (before.flatMap Part.text).length = i

/-- The placeholders among the parts are those that stand in the template. -/
structure Divides (parts : List Part) (cs : List Char) : Prop where
  text : parts.flatMap Part.text = cs
  placed : ∀ i name, StandsAt cs i name ↔ PlacedAt parts i name

section Parts

variable {p : Part} {parts : List Part}

theorem placedAt_zero_iff : PlacedAt (p :: parts) 0 name ↔ p = .placeholder name := by
  constructor
  · rintro ⟨before, after, hparts, hlength⟩
    cases before with
    | nil => exact (List.cons.inj hparts).1
    | cons q before =>
      have hpos := q.length_text_pos
      simp only [List.flatMap_cons, List.length_append] at hlength
      omega
  · rintro rfl
    exact ⟨[], parts, rfl, rfl⟩

theorem placedAt_add_iff : PlacedAt (p :: parts) (p.text.length + i) name ↔ PlacedAt parts i name := by
  constructor
  · rintro ⟨before, after, hparts, hlength⟩
    cases before with
    | nil =>
      have hpos := p.length_text_pos
      simp only [List.flatMap_nil, List.length_nil] at hlength
      omega
    | cons q before =>
      obtain ⟨rfl, rfl⟩ := List.cons.inj hparts
      refine ⟨before, after, rfl, ?_⟩
      simp only [List.flatMap_cons, List.length_append] at hlength
      omega
  · rintro ⟨before, after, rfl, rfl⟩
    exact ⟨p :: before, after, rfl, by simp⟩

theorem placedAt_of_lt (hi : i < p.text.length) (h : PlacedAt (p :: parts) i name) : i = 0 := by
  obtain ⟨before, after, hparts, rfl⟩ := h
  cases before with
  | nil => rfl
  | cons q before =>
    obtain ⟨rfl, -⟩ := List.cons.inj hparts
    simp only [List.flatMap_cons, List.length_append] at hi
    omega

theorem Divides.tail (h : Divides (p :: parts) cs) : ∃ rest, cs = p.text ++ rest ∧ Divides parts rest := by
  refine ⟨parts.flatMap Part.text, h.text.symm, rfl, ?_⟩
  intro i name
  rw [← placedAt_add_iff (p := p), ← h.placed, ← h.text, List.flatMap_cons, standsAt_append_iff]

/-- A part in front of a divided template is divided off, if it is what the template begins with. -/
theorem Divides.cons (h : Divides parts cs) (hzero : ∀ name, StandsAt (p.text ++ cs) 0 name ↔ p = .placeholder name)
    (hinside : ∀ i name, 0 < i → i < p.text.length → ¬ StandsAt (p.text ++ cs) i name) :
    Divides (p :: parts) (p.text ++ cs) := by
  constructor
  · rw [List.flatMap_cons, h.text]
  · intro i name
    by_cases hi : i < p.text.length
    · rcases Nat.eq_zero_or_pos i with rfl | hpos
      · rw [hzero, placedAt_zero_iff]
      · apply iff_of_false (hinside i name hpos hi)
        intro hplaced
        exact hpos.ne' (placedAt_of_lt hi hplaced)
    · obtain ⟨j, rfl⟩ : ∃ j, i = p.text.length + j := ⟨i - p.text.length, by omega⟩
      rw [standsAt_append_iff, placedAt_add_iff, h.placed]

theorem exists_divides (cs : List Char) : ∃ parts, Divides parts cs := by
  induction cs using template_induction with
  | nil =>
    refine ⟨[], rfl, ?_⟩
    intro i name
    apply iff_of_false
    · rintro ⟨-, hspelled⟩
      simp [spelling] at hspelled
    · rintro ⟨before, after, hparts, -⟩
      simp at hparts
  | placeholder name cs hname ih =>
    obtain ⟨parts, hparts⟩ := ih
    have hstands : StandsAt (spelling name ++ cs) 0 name := standsAt_zero_iff.mpr ⟨hname, cs, rfl⟩
    refine ⟨.placeholder name :: parts, hparts.cons ?_ ?_⟩
    · intro name'
      rw [Part.placeholder.injEq]
      constructor
      · intro h
        exact hstands.unique h
      · rintro rfl
        exact hstands
    · intro i name' hpos hi h
      have hle := hstands.le_of_lt h hpos
      rw [Part.text] at hi
      omega
  | kept c cs hnone ih =>
    obtain ⟨parts, hparts⟩ := ih
    refine ⟨.kept c :: parts, @Divides.cons cs (.kept c) parts hparts ?_ ?_⟩
    · intro name
      apply iff_of_false (hnone name)
      intro heq
      cases heq
    · intro i name hpos hi
      simp only [Part.text, List.length_singleton] at hi
      omega

theorem Divides.fillBy {texts : List Char → List Char} (h : Divides parts cs) :
    fillBy (fun name => .ok (texts name)) 0 cs = .ok (parts.flatMap (Part.filled texts)) := by
  induction parts generalizing cs with
  | nil =>
    rw [← h.text]
    rfl
  | cons p parts ih =>
    obtain ⟨rest, rfl, hrest⟩ := h.tail
    cases p with
    | kept c =>
      have hnone : ∀ name, ¬ StandsAt (c :: rest) 0 name := by
        intro name hname
        have hplaced := placedAt_zero_iff.mp ((h.placed 0 name).mp hname)
        cases hplaced
      have hkept : Template.fillBy (fun name => .ok (texts name)) 0 (c :: rest) = _ := fillBy_kept hnone
      rw [ih hrest] at hkept
      exact hkept
    | placeholder name =>
      have hstands : StandsAt (spelling name ++ rest) 0 name := (h.placed 0 name).mpr (placedAt_zero_iff.mpr rfl)
      have hfilled : Template.fillBy (fun name => .ok (texts name)) 0 (spelling name ++ rest) = _ :=
        fillBy_placeholder hstands.isName rest
      rw [ih hrest] at hfilled
      exact hfilled

end Parts

section Environment

variable {env env' : Environment} {a b : String}

/-- Every value has a text. -/
def Convertible (env : Environment) : Prop :=
  ∀ entry ∈ env, ∃ text, entry.2.toText = .ok text

/-- The texts of variables, empty where there is none. -/
structure TextsOf (env : Environment) (texts : List Char → List Char) : Prop where
  absent : ∀ name, Mapping.get? env (String.ofList name) = none → texts name = []
  null : ∀ name, Mapping.get? env (String.ofList name) = some .null → texts name = []
  present : ∀ name v, Mapping.get? env (String.ofList name) = some v → v.toText = .ok (String.ofList (texts name))

theorem eq_ok_of_map {r : Except Cause (List Char)} {text : String} (h : r.map String.ofList = .ok text) :
    r = .ok text.toList := by
  cases r with
  | error cause => cases h
  | ok cs =>
    cases h
    rw [String.toList_ofList]

theorem exists_variableText (h : Convertible env) (name : List Char) : ∃ text, variableText env name = .ok text := by
  rw [variableText]
  cases hget : Mapping.get? env (String.ofList name) with
  | none => exact ⟨[], rfl⟩
  | some v =>
    have heach : Mapping.Each (fun _ => True) (fun v => ∃ text, v.toText = .ok text) env :=
      fun entry hentry => ⟨trivial, h entry hentry⟩
    obtain ⟨text, htext⟩ := heach.of_get? hget
    exact ⟨text.toList, eq_ok_of_map htext⟩

theorem textsOf_of_variableText {texts : List Char → List Char}
    (h : ∀ name, variableText env name = .ok (texts name)) : TextsOf env texts := by
  constructor
  · intro name hget
    have htext := h name
    rw [variableText, hget] at htext
    exact (Except.ok.inj htext).symm
  · intro name hget
    have htext := h name
    rw [variableText, hget] at htext
    exact (Except.ok.inj htext).symm
  · intro name v hget
    have htext := h name
    rw [variableText, hget, Option.getD_some] at htext
    rw [Value.toText, htext]
    rfl

theorem exists_texts (h : Convertible env) :
    ∃ texts : List Char → List Char, TextsOf env texts ∧ ∀ (template : String) parts, Divides parts template.toList →
      fill template env = .ok (String.ofList (parts.flatMap (Part.filled texts))) := by
  choose texts htexts using exists_variableText h
  refine ⟨texts, textsOf_of_variableText htexts, ?_⟩
  intro template parts hparts
  have hall : variableText env = fun name => .ok (texts name) := funext htexts
  rw [fill, hall, hparts.fillBy]
  rfl

theorem exists_fill (h : Convertible env) (template : String) : ∃ text, fill template env = .ok text := by
  obtain ⟨texts, -, hfill⟩ := exists_texts h
  obtain ⟨parts, hparts⟩ := exists_divides template.toList
  exact ⟨_, hfill template parts hparts⟩

theorem fill_append (h : CutBetween a.toList b.toList) {first last : String} (hfirst : fill a env = .ok first)
    (hlast : fill b env = .ok last) : fill (a ++ b) env = .ok (first ++ last) := by
  rw [fill, String.toList_append, fillBy_append a.toList h, eq_ok_of_map hfirst, eq_ok_of_map hlast]
  change Except.ok (String.ofList (first.toList ++ last.toList)) = _
  rw [← String.toList_append, String.ofList_toList]

theorem fill_of_agree {template : String} (h : ∀ i name, StandsAt template.toList i name →
    Mapping.get? env' (String.ofList name) = Mapping.get? env (String.ofList name)) :
    fill template env' = fill template env := by
  apply fill_congr
  rintro key ⟨name, hmentions, rfl⟩
  obtain ⟨i, hname⟩ := standsAt_of_mentions hmentions
  exact h i name hname

theorem fill_of_not_standsAt {template : String} (h : ∀ i name, ¬ StandsAt template.toList i name) :
    fill template env = .ok template := by
  rw [fill, fillBy_of_not_standsAt h]
  change Except.ok (String.ofList template.toList) = _
  rw [String.ofList_toList]

/-- Filling in replaces the placeholders, which never overlap, by the texts of their variables, and nothing else. So two
templates can be filled in apart where no placeholder lies across the cut, other variables do not matter, and without
placeholders a template stays as it is. -/
theorem placeholders_replaced (template : String) {env : Environment} (hconvert : Convertible env) :
    (∀ i j name name', StandsAt template.toList i name → StandsAt template.toList j name' →
      i = j ∧ name = name' ∨ i + (spelling name).length ≤ j ∨ j + (spelling name').length ≤ i) ∧
    (∃ texts, TextsOf env texts ∧ (∃ parts, Divides parts template.toList) ∧ ∀ parts, Divides parts template.toList →
      fill template env = .ok (String.ofList (parts.flatMap (Part.filled texts)))) ∧
    (∀ a b, template = a ++ b → CutBetween a.toList b.toList → ∃ first last, fill a env = .ok first ∧
      fill b env = .ok last ∧ fill template env = .ok (first ++ last)) ∧
    (∀ env' : Environment, (∀ i name, StandsAt template.toList i name →
      Mapping.get? env' (String.ofList name) = Mapping.get? env (String.ofList name)) →
      fill template env' = fill template env) ∧
    ((∀ i name, ¬ StandsAt template.toList i name) → fill template env = .ok template) := by
  refine ⟨?_, ?_, ?_, ?_, fill_of_not_standsAt⟩
  · intro i j name name' h h'
    rcases Nat.lt_trichotomy i j with hlt | rfl | hlt
    · exact .inr (.inl (h.le_of_lt h' hlt))
    · exact .inl ⟨rfl, h.unique h'⟩
    · exact .inr (.inr (h'.le_of_lt h hlt))
  · obtain ⟨texts, htexts, hfill⟩ := exists_texts hconvert
    exact ⟨texts, htexts, exists_divides template.toList, hfill template⟩
  · rintro a b rfl hcut
    obtain ⟨first, hfirst⟩ := exists_fill hconvert a
    obtain ⟨last, hlast⟩ := exists_fill hconvert b
    exact ⟨first, last, hfirst, hlast, fill_append hcut hfirst hlast⟩
  · intro env' h
    exact fill_of_agree h

/-- A value that looks like a placeholder itself, and one that is no text. -/
def given : Environment :=
  [(.text "x", .str "$\x7by\x7d"), (.text "y", .bool true)]

theorem near_misses_kept :
    Convertible given ∧ ∃ texts parts, TextsOf given texts ∧ Divides parts "$${x}${a-b}${}$\x7by${y}${z}.".toList ∧
      String.ofList (parts.flatMap (Part.filled texts)) = "$${y}${a-b}${}$\x7bytrue." := by
  have hconvert : Convertible given := by
    intro entry hentry
    simp only [given, List.mem_cons, List.not_mem_nil, or_false] at hentry
    rcases hentry with rfl | rfl
    · exact ⟨_, rfl⟩
    · exact ⟨_, rfl⟩
  have hfilled : fill "$${x}${a-b}${}$\x7by${y}${z}." given = .ok "$${y}${a-b}${}$\x7bytrue." := by cbv
  obtain ⟨-, ⟨texts, htexts, ⟨parts, hparts⟩, hfill⟩, -⟩ :=
    placeholders_replaced "$${x}${a-b}${}$\x7by${y}${z}." hconvert
  refine ⟨hconvert, texts, parts, htexts, hparts, ?_⟩
  rw [hfill parts hparts] at hfilled
  exact Except.ok.inj hfilled

end Environment

end RoutineFlow.Template
