import Mathlib
import RoutineFlow.Text.Blank

/-!
What trimming leaves of a text is what stands between the blanks at its ends.
-/

namespace RoutineFlow.Text

variable {before after cs core : List Char}

def Blank (cs : List Char) : Prop :=
  ∀ c ∈ cs, isBlank c = true

/-- No blank stands at either end. -/
structure Trimmed (cs : List Char) : Prop where
  head : ∀ c ∈ cs.head?, isBlank c = false
  last : ∀ c ∈ cs.getLast?, isBlank c = false

theorem blank_nil : Blank [] := by
  intro c hc
  cases hc

theorem Blank.append (hbefore : Blank before) (hafter : Blank after) : Blank (before ++ after) := by
  intro c hc
  rcases List.mem_append.mp hc with hc | hc
  · exact hbefore c hc
  · exact hafter c hc

theorem Blank.reverse (h : Blank cs) : Blank cs.reverse := by
  intro c hc
  exact h c (List.mem_reverse.mp hc)

theorem Blank.not_mem {c : Char} (h : Blank cs) (hc : isBlank c = false) : c ∉ cs := by
  intro hmem
  rw [h c hmem] at hc
  cases hc

theorem trimmed_of_forall (h : ∀ c ∈ cs, isBlank c = false) : Trimmed cs where
  head c hc := h c (List.mem_of_mem_head? hc)
  last c hc := h c (List.mem_of_mem_getLast? hc)

theorem trimLeft_append (hbefore : Blank before) (hcs : ∀ c ∈ cs.head?, isBlank c = false) :
    trimLeft (before ++ cs) = cs := by
  rw [trimLeft, List.dropWhile_append_of_pos hbefore]
  cases cs with
  | nil => rfl
  | cons c cs =>
    have hc : isBlank c = false := hcs c rfl
    simp [hc]

theorem exists_trimLeft (cs : List Char) :
    ∃ before, Blank before ∧ cs = before ++ trimLeft cs ∧ ∀ c ∈ (trimLeft cs).head?, isBlank c = false := by
  refine ⟨cs.takeWhile isBlank, ?_, List.takeWhile_append_dropWhile.symm, ?_⟩
  · intro c hc
    exact List.mem_takeWhile_imp hc
  · intro c hc
    have hhead := List.head?_dropWhile_not isBlank cs
    rw [← trimLeft, Option.mem_def.mp hc] at hhead
    exact hhead

theorem trim_of_blank (h : Blank cs) : trim cs = [] := by
  have hleft : trimLeft cs = [] := by
    rw [trimLeft, List.dropWhile_eq_nil_iff]
    exact h
  rw [trim, hleft]
  rfl

theorem trim_append (hbefore : Blank before) (hafter : Blank after) (hcore : Trimmed core) :
    trim (before ++ core ++ after) = core := by
  by_cases hempty : core = []
  · rw [hempty, List.append_nil]
    exact trim_of_blank (hbefore.append hafter)
  · have hleft : trimLeft (before ++ (core ++ after)) = core ++ after := by
      apply trimLeft_append hbefore
      rw [List.head?_append_of_ne_nil _ hempty]
      exact hcore.head
    have hright : trimLeft (after.reverse ++ core.reverse) = core.reverse := by
      apply trimLeft_append hafter.reverse
      rw [List.head?_reverse]
      exact hcore.last
    rw [List.append_assoc, trim, hleft, List.reverse_append, hright, List.reverse_reverse]

theorem exists_trim (cs : List Char) :
    ∃ before after, Blank before ∧ Blank after ∧ cs = before ++ trim cs ++ after ∧ Trimmed (trim cs) := by
  obtain ⟨before, hbefore, hcs, hhead⟩ := exists_trimLeft cs
  obtain ⟨after, hafter, hreverse, hlast⟩ := exists_trimLeft (trimLeft cs).reverse
  have hleft : trimLeft cs = trim cs ++ after.reverse := by
    rw [trim, ← List.reverse_append, ← hreverse, List.reverse_reverse]
  refine ⟨before, after.reverse, hbefore, hafter.reverse, ?_, ?_, ?_⟩
  · rw [List.append_assoc, ← hleft]
    exact hcs
  · intro c hc
    apply hhead
    rw [hleft, List.head?_append, Option.mem_def.mp hc]
    rfl
  · rw [trim, List.getLast?_reverse]
    exact hlast

theorem trimmed_trim (cs : List Char) : Trimmed (trim cs) := by
  obtain ⟨_, _, _, _, _, h⟩ := exists_trim cs
  exact h

theorem trim_blanks (hbefore : Blank before) (hafter : Blank after) (cs : List Char) :
    trim (before ++ cs ++ after) = trim cs := by
  obtain ⟨start, finish, hstart, hfinish, hcs, hcore⟩ := exists_trim cs
  have houter : before ++ cs ++ after = (before ++ start) ++ trim cs ++ (finish ++ after) := by
    conv_lhs => rw [hcs]
    simp only [List.append_assoc]
  rw [houter]
  exact trim_append (hbefore.append hstart) (hfinish.append hafter) hcore

theorem mem_of_mem_trim {c : Char} (h : c ∈ trim cs) : c ∈ cs := by
  obtain ⟨_, _, _, _, hcs, _⟩ := exists_trim cs
  rw [hcs]
  simp [h]

theorem trim_eq_nil_iff : trim cs = [] ↔ Blank cs := by
  constructor
  · intro h
    obtain ⟨before, after, hbefore, hafter, hcs, -⟩ := exists_trim cs
    rw [hcs, h, List.append_nil]
    exact hbefore.append hafter
  · exact trim_of_blank

end RoutineFlow.Text
