import Mathlib
import RoutineFlow.Expr.Builtin

/-!
A text is cut at the occurrences of a separator that a reader meets from left to right, each behind the one before. The
pieces hold no separator, and joined by it they are the text again.
-/

namespace RoutineFlow

namespace Text

variable {c : Char} {part before after cs piece : List Char} {starts starts' : List Nat}

/-- The part that stands between `before` and `after` does not begin any earlier. -/
def First (part before after : List Char) : Prop :=
  ∀ i < before.length, ¬ part <+: (before ++ part ++ after).drop i

/-- The places of a part that do not overlap, from left to right: wherever else the part begins, it overlaps with
the end of one of them. -/
structure Occurrences (part cs : List Char) (starts : List Nat) : Prop where
  stands : ∀ i ∈ starts, part <+: cs.drop i
  apart : starts.Pairwise fun i j => i + part.length ≤ j
  complete : ∀ i, part <+: cs.drop i → ∃ j ∈ starts, j ≤ i ∧ i < j + part.length

section First

theorem First.cons (h : First part before after) (hc : ¬ part <+: c :: (before ++ part ++ after)) :
    First part (c :: before) after := by
  intro i hi
  cases i with
  | zero => exact hc
  | succ i =>
    apply h i
    simpa using hi

theorem First.tail (h : First part (c :: before) after) : First part before after := by
  intro i hi
  apply h (i + 1)
  simpa using hi

theorem exists_first (h : part <:+: cs) : ∃ before after, cs = before ++ part ++ after ∧ First part before after := by
  induction cs with
  | nil =>
    refine ⟨[], [], ?_, ?_⟩
    · simpa using h
    · intro i hi
      simp at hi
  | cons c cs ih =>
    by_cases hbegins : part <+: c :: cs
    · obtain ⟨after, hafter⟩ := hbegins
      refine ⟨[], after, hafter.symm, ?_⟩
      intro i hi
      simp at hi
    · have hrest : part <:+: cs := (List.infix_cons_iff.mp h).resolve_left hbegins
      obtain ⟨before, after, rfl, hfirst⟩ := ih hrest
      exact ⟨c :: before, after, rfl, hfirst.cons hbegins⟩

/-- What holds of texts without the part, and of a text if it holds behind the first place of the part, holds of all
texts. -/
theorem first_induction {motive : List Char → Prop} (hpart : part ≠ [])
    (last : ∀ cs, ¬ part <:+: cs → motive cs)
    (cut : ∀ before after, First part before after → motive after → motive (before ++ part ++ after))
    (cs : List Char) : motive cs := by
  induction hn : cs.length using Nat.strong_induction_on generalizing cs with
  | _ n ih =>
    by_cases h : part <:+: cs
    · obtain ⟨before, after, rfl, hfirst⟩ := exists_first h
      apply cut before after hfirst
      apply ih after.length _ after rfl
      have hpos := List.length_pos_of_ne_nil hpart
      simp only [List.length_append] at hn
      omega
    · exact last cs h

theorem First.not_infix_before (hpart : part ≠ []) (h : First part before after) : ¬ part <:+: before := by
  rintro ⟨u, v, rfl⟩
  have hpos := List.length_pos_of_ne_nil hpart
  apply h u.length
  · simp only [List.length_append]
    omega
  · simp

theorem not_infix_of_not_mem (h : c ∉ cs) : ¬ [c] <:+: cs := by
  rw [List.singleton_infix_iff]
  exact h

theorem first_of_not_mem (h : c ∉ before) : First [c] before after := by
  intro i hi hbegins
  apply h
  rw [List.append_assoc, List.drop_append_of_le_length hi.le, List.drop_eq_getElem_cons hi, List.cons_append,
    List.cons_prefix_cons] at hbegins
  rw [hbegins.1]
  exact List.getElem_mem hi

end First

section Cutting

theorem splitFrom_skip (xs cs : List Char) : splitFrom part xs.length (xs ++ cs) = split part cs := by
  induction xs with
  | nil => rfl
  | cons x xs ih => exact ih

theorem split_cons_of_prefix (hpart : part ≠ []) : split part (part ++ after) = [] :: split part after := by
  obtain ⟨c, u, rfl⟩ := List.exists_cons_of_ne_nil hpart
  have hbegins : (c :: u).isPrefixOf (c :: (u ++ after)) = true := by
    rw [List.isPrefixOf_iff_prefix]
    exact List.prefix_append (c :: u) after
  rw [List.cons_append, split, splitFrom, if_pos hbegins]
  exact congrArg _ (splitFrom_skip u after)

theorem split_cons (h : ¬ part <+: c :: cs) : split part (c :: cs) = extendHead c (split part cs) := by
  rw [← List.isPrefixOf_iff_prefix] at h
  rw [split, splitFrom, if_neg h]
  rfl

theorem split_eq_singleton (h : ¬ part <:+: cs) : split part cs = [cs] := by
  induction cs with
  | nil => rfl
  | cons c cs ih =>
    rw [List.infix_cons_iff, not_or] at h
    rw [split_cons h.1, ih h.2]
    rfl

theorem split_of_first (hpart : part ≠ []) (h : First part before after) :
    split part (before ++ part ++ after) = before :: split part after := by
  induction before with
  | nil => exact split_cons_of_prefix hpart
  | cons c before ih =>
    have hc : ¬ part <+: c :: (before ++ part ++ after) := h 0 (by simp)
    simp only [List.cons_append]
    rw [split_cons hc, ih h.tail]
    rfl

theorem split_ne_nil (hpart : part ≠ []) (cs : List Char) : split part cs ≠ [] := by
  induction cs using first_induction hpart with
  | last cs h => simp [split_eq_singleton h]
  | cut before after h _ =>
    rw [split_of_first hpart h]
    exact List.cons_ne_nil _ _

theorem join_cons_of_ne_nil {pieces : List (List Char)} (h : pieces ≠ []) :
    join part (piece :: pieces) = piece ++ part ++ join part pieces := by
  obtain ⟨other, others, rfl⟩ := List.exists_cons_of_ne_nil h
  rfl

theorem join_split (hpart : part ≠ []) (cs : List Char) : join part (split part cs) = cs := by
  induction cs using first_induction hpart with
  | last cs h =>
    rw [split_eq_singleton h]
    rfl
  | cut before after h ih => rw [split_of_first hpart h, join_cons_of_ne_nil (split_ne_nil hpart after), ih]

theorem not_infix_of_mem_split (hpart : part ≠ []) (h : piece ∈ split part cs) : ¬ part <:+: piece := by
  induction cs using first_induction hpart with
  | last cs hcs =>
    rw [split_eq_singleton hcs, List.mem_singleton] at h
    rwa [h]
  | cut before after hfirst ih =>
    rw [split_of_first hpart hfirst, List.mem_cons] at h
    rcases h with rfl | h
    · exact hfirst.not_infix_before hpart
    · exact ih h

theorem split_join {pieces : List (List Char)} (hne : pieces ≠ []) (h : ∀ piece ∈ pieces, c ∉ piece) :
    split [c] (join [c] pieces) = pieces := by
  induction pieces with
  | nil => exact absurd rfl hne
  | cons piece pieces ih =>
    obtain ⟨hpiece, hpieces⟩ := List.forall_mem_cons.mp h
    by_cases hlast : pieces = []
    · rw [hlast]
      exact split_eq_singleton (not_infix_of_not_mem hpiece)
    · rw [join_cons_of_ne_nil hlast, split_of_first (by simp) (first_of_not_mem hpiece), ih hlast hpieces]

end Cutting

namespace Occurrences

theorem none (h : ¬ part <:+: cs) : Occurrences part cs [] where
  stands := by simp
  apart := .nil
  complete i hi := by
    apply absurd _ h
    exact hi.isInfix.trans (List.drop_suffix i cs).isInfix

theorem next (hfirst : First part before after) (h : Occurrences part after starts) :
    Occurrences part (before ++ part ++ after)
      (before.length :: starts.map (before.length + part.length + ·)) where
  stands := by
    rw [List.forall_mem_cons, List.forall_mem_map]
    constructor
    · simp
    · intro i hi
      rw [← List.length_append, List.drop_length_add_append]
      exact h.stands i hi
  apart := by
    rw [List.pairwise_cons, List.forall_mem_map, List.pairwise_map]
    constructor
    · intro i _
      omega
    · apply h.apart.imp
      intro i j hij
      omega
  complete i hi := by
    by_cases hbefore : i < before.length
    · exact absurd hi (hfirst i hbefore)
    by_cases hinside : i < before.length + part.length
    · exact ⟨before.length, List.mem_cons_self, by omega, hinside⟩
    · -- behind the first place, the part is found among the later ones
      obtain ⟨k, rfl⟩ : ∃ k, i = before.length + part.length + k := ⟨i - (before.length + part.length), by omega⟩
      rw [← List.length_append, List.drop_length_add_append] at hi
      obtain ⟨j, hj, hle, hlt⟩ := h.complete k hi
      refine ⟨before.length + part.length + j, ?_, by omega, by omega⟩
      exact List.mem_cons_of_mem _ (List.mem_map_of_mem hj)

theorem add_length_le (h : Occurrences part cs starts) {i j : Nat} (hj : j ∈ starts) (hi : i ∈ starts) (hlt : j < i) :
    j + part.length ≤ i := by
  have hapart : starts.Pairwise fun i j => i + part.length ≤ j ∨ j + part.length ≤ i := h.apart.imp .inl
  have hsymm : Std.Symm fun i j => i + part.length ≤ j ∨ j + part.length ≤ i := ⟨fun _ _ => Or.symm⟩
  rcases hapart.forall hj hi hlt.ne with hle | hle
  · exact hle
  · omega

theorem mem_of_earlier (h : Occurrences part cs starts) (h' : Occurrences part cs starts') {i : Nat}
    (hearlier : ∀ j < i, j ∈ starts' → j ∈ starts) (hi : i ∈ starts) : i ∈ starts' := by
  obtain ⟨j, hj, hle, hlt⟩ := h'.complete i (h.stands i hi)
  rcases hle.eq_or_lt with rfl | hlt'
  · exact hj
  · have hapart := h.add_length_le (hearlier j hlt' hj) hi hlt'
    omega

theorem unique (hpart : part ≠ []) (h : Occurrences part cs starts) (h' : Occurrences part cs starts') :
    starts = starts' := by
  have hmem (i : Nat) : i ∈ starts ↔ i ∈ starts' := by
    induction i using Nat.strong_induction_on with
    | _ i ih =>
      constructor
      · apply h.mem_of_earlier h'
        intro j hj
        exact (ih j hj).mpr
      · apply h'.mem_of_earlier h
        intro j hj
        exact (ih j hj).mp
  have hpos := List.length_pos_of_ne_nil hpart
  have hsorted {starts : List Nat} (h : Occurrences part cs starts) : starts.Pairwise (· < ·) := by
    apply h.apart.imp
    intro i j hij
    omega
  exact (hsorted h).eq_of_mem_iff (hsorted h') hmem

/-- One piece more than there are occurrences. -/
theorem exists_of_split (hpart : part ≠ []) (cs : List Char) :
    ∃ starts, Occurrences part cs starts ∧ (split part cs).length = starts.length + 1 := by
  induction cs using first_induction hpart with
  | last cs h =>
    refine ⟨[], none h, ?_⟩
    rw [split_eq_singleton h]
    rfl
  | cut before after hfirst ih =>
    obtain ⟨starts, hstarts, hlength⟩ := ih
    refine ⟨_, hstarts.next hfirst, ?_⟩
    rw [split_of_first hpart hfirst, List.length_cons, List.length_cons, List.length_map, hlength]

end Occurrences

end Text

namespace Builtin

open Text (Occurrences)

theorem call_eq_run {f : Builtin} {args : List Value}
    (h : ∀ s, f.signature? = some s → checkCount s args.length = .ok ()) : call f args = run f args := by
  unfold call
  cases hs : f.signature? with
  | none => rfl
  | some s =>
    simp only [h s hs]
    rfl

theorem call_split {s sep : String} (hsep : sep ≠ "") :
    call .split [.str s, .str sep] = .ok (pieces (Text.split sep.toList s.toList)) := by
  have hempty : sep.toList.isEmpty = false := by
    simpa using hsep
  rw [call_eq_run (by rintro s ⟨⟩; rfl)]
  simp only [run, splitText, Value.isEmpty, hempty, Bool.false_eq_true, ↓reduceIte]

theorem textItems_str (xs : List String) : Value.textItems (xs.map .str) = .ok (xs.map String.toList) := by
  induction xs with
  | nil => rfl
  | cons x xs ih =>
    rw [List.map_cons, Value.textItems, ih]
    rfl

theorem call_join (xs : List String) (sep : String) :
    call .join [.list (xs.map .str), .str sep] =
      .ok (.str (String.ofList (Text.join sep.toList (xs.map String.toList)))) := by
  rw [call_eq_run (by rintro s ⟨⟩; rfl)]
  simp only [run, joinTexts, members]
  change (Value.textItems (xs.map .str)).map _ = _
  rw [textItems_str]
  rfl

theorem pieces_eq (parts : List (List Char)) : pieces parts = .list ((parts.map String.ofList).map .str) := by
  rw [pieces, List.map_map]
  rfl

/-- A split text is joined again by its separator; its pieces hold none, and are one more than its occurrences. Texts that
are joined by a character that none of them holds are found again by splitting. -/
theorem split_joins_back :
    (∀ s sep : String, sep ≠ "" → ∃ parts : List String,
      call .split [.str s, .str sep] = .ok (.list (parts.map .str)) ∧
      call .join [.list (parts.map .str), .str sep] = .ok (.str s) ∧
      (∀ part ∈ parts, ¬ sep.toList <:+: part.toList) ∧
      ∃ starts, (∀ starts', Occurrences sep.toList s.toList starts' ↔ starts' = starts) ∧
        parts.length = starts.length + 1) ∧
    ∀ (c : Char) (xs : List String), xs ≠ [] → (∀ x ∈ xs, c ∉ x.toList) → ∃ joined : String,
      call .join [.list (xs.map .str), .str (String.singleton c)] = .ok (.str joined) ∧
      call .split [.str joined, .str (String.singleton c)] = .ok (.list (xs.map .str)) := by
  constructor
  · intro s sep hsep
    have hpart : sep.toList ≠ [] := by simpa using hsep
    obtain ⟨starts, hstarts, hlength⟩ := Occurrences.exists_of_split hpart s.toList
    refine ⟨(Text.split sep.toList s.toList).map String.ofList, ?_, ?_, ?_, starts, ?_, ?_⟩
    · rw [call_split hsep, pieces_eq]
    · rw [call_join, List.map_map]
      simp only [Function.comp_def, String.toList_ofList, List.map_id', Text.join_split hpart, String.ofList_toList]
    · rw [List.forall_mem_map]
      intro part hpiece
      rw [String.toList_ofList]
      exact Text.not_infix_of_mem_split hpart hpiece
    · intro starts'
      constructor
      · intro h
        exact h.unique hpart hstarts
      · rintro rfl
        exact hstarts
    · rw [List.length_map, hlength]
  · intro c xs hxs hc
    have htexts : xs.map String.toList ≠ [] := by simpa using hxs
    have hfree : ∀ cs ∈ xs.map String.toList, c ∉ cs := by
      rw [List.forall_mem_map]
      exact hc
    refine ⟨_, call_join xs _, ?_⟩
    rw [call_split (by simp), String.toList_ofList, String.toList_singleton, Text.split_join htexts hfree, pieces_eq,
      List.map_map]
    simp [Function.comp_def]

/-- A separator that overlaps itself, within a text and at its end. -/
theorem overlapping_joins_back :
    "aa" ≠ "" ∧ call .split [.str "aaabaaa", .str "aa"] = .ok (.list (["", "ab", "a"].map .str)) ∧
      call .join [.list (["", "ab", "a"].map .str), .str "aa"] = .ok (.str "aaabaaa") ∧
      (∀ starts, Occurrences "aa".toList "aaabaaa".toList starts → starts.length = 2) ∧
      ["", "ab", ""] ≠ [] ∧ (∀ x ∈ ["", "ab", ""], ',' ∉ x.toList) ∧
      call .split [.str ",ab,", .str ","] = .ok (.list (["", "ab", ""].map .str)) := by
  have hsep : "aa" ≠ "" := by decide
  have hxs : ["", "ab", ""] ≠ [] := by decide
  have hc : ∀ x ∈ ["", "ab", ""], ',' ∉ x.toList := by decide
  obtain ⟨parts, hsplit, hjoin, -, starts, hstarts, hlength⟩ := split_joins_back.1 "aaabaaa" "aa" hsep
  obtain ⟨joined, hjoined, hback⟩ := split_joins_back.2 ',' ["", "ab", ""] hxs hc
  have hcut : call .split [.str "aaabaaa", .str "aa"] = .ok (.list (["", "ab", "a"].map .str)) := rfl
  have hcommas : call .join [.list (["", "ab", ""].map .str), .str ","] = .ok (.str ",ab,") := rfl
  obtain rfl : parts = ["", "ab", "a"] := by
    rw [hcut] at hsplit
    injection hsplit with hsplit
    injection hsplit with hsplit
    have hinjective : Function.Injective Value.str := fun _ _ => Value.str.inj
    exact (hinjective.list_map hsplit).symm
  obtain rfl : joined = ",ab," := by
    have hboth := hjoined.symm.trans hcommas
    injection hboth with hboth
    injection hboth
  refine ⟨hsep, hsplit, hjoin, ?_, hxs, hc, hback⟩
  intro starts' h
  rw [(hstarts starts').mp h]
  simpa [eq_comm] using hlength

end Builtin

end RoutineFlow
