import Mathlib.Logic.Relation
import RoutineFlow.Proofs.Lexemes

/-!
The states of the automaton, without the derivations that lead there. Wherever an expression may stand, its tokens lead
through the same states as at the start of a text, now on top of the states that were entered before.
-/

namespace RoutineFlow.Expr

namespace Automaton

/-- The state that was entered last. -/
def top : List Nat → Nat
  | [] => 0
  | s :: _ => s

inductive Reduces (t : Terminal) : List Nat → List Nat → Prop
  | of {body rest : List Nat} {rule : Rule} {target : Nat} :
      action (top (body ++ rest)) t = .reduce rule → body.length = rule.body.length →
      goto? (top rest) rule.head = some target → Reduces t (body ++ rest) (target :: rest)

def Settles (t : Terminal) : List Nat → List Nat → Prop :=
  Relation.ReflTransGen (Reduces t)

/-- The reductions in front of a terminal, and its shift. -/
def Shifts (t : Terminal) (states next : List Nat) : Prop :=
  ∃ settled target, Settles t states settled ∧ step? (top settled) (.terminal t) = some target ∧
    next = target :: settled

/-- The end of the text would be accepted. -/
def Ends (states : List Nat) : Prop :=
  Settles .finish states [accepting]

/-- The state behind an expression that nothing stands around. -/
def concluded : Nat := 17

/-- An expression may stand here. -/
def Opens (s : Nat) : Prop :=
  (goto? s .conditional).isSome

instance (s : Nat) : Decidable (Opens s) :=
  inferInstanceAs (Decidable ((goto? s .conditional).isSome = true))

def closers : List Terminal :=
  [.colon, .comma, .closeBrace, .closeParen, .closeBracket]

-- What the tables say of every state: where an expression may stand, there are the shifts and gotos of the start of a text,
-- and in front of a closing terminal there are the reductions that there are in front of the end.

theorem opens_shift_all : (List.range states.size).all (fun s => !decide (Opens s) ||
    (state 0).shifts.all fun (t, target) => step? s (.terminal t) == some target) = true := by
  decide

theorem opens_goto_all : (List.range states.size).all (fun s => !decide (Opens s) ||
    (state 0).gotos.all fun (p, target) => [concluded, accepting].contains target || goto? s p == some target) =
      true := by
  decide

theorem closers_all : (List.range states.size).all (fun s => s == concluded || match action s .finish with
    | .reduce rule => rule.head != .whole && closers.all fun t => action s t == .reduce rule
    | _ => true) = true := by
  decide

theorem whole_all : (List.range states.size).all (fun s =>
    (state s).gotos.all fun (p, target) => p != .whole || target == accepting) = true := by
  decide

theorem shifts_all : (List.range states.size).all (fun s =>
    (state s).shifts.all fun (_, target) => target != concluded && target != accepting) = true := by
  decide

variable {t : Terminal} {s target : Nat} {entered next last outer : List Nat}

theorem step_of_opens (hopens : Opens s) (h : step? 0 (.terminal t) = some target) :
    step? s (.terminal t) = some target := by
  obtain ⟨g, hg⟩ := Option.isSome_iff_exists.mp hopens
  have hall := List.all_eq_true.mp opens_shift_all s (List.mem_range.mpr (lt_of_step (X := .phrase _) hg))
  simp only [hopens, decide_true, Bool.not_true, Bool.false_or, List.all_eq_true] at hall
  simpa using hall _ (mem_of_lookup h)

theorem goto_of_opens {p : Phrase} (hopens : Opens s) (h : goto? 0 p = some target) (hconcluded : target ≠ concluded)
    (haccepting : target ≠ accepting) : goto? s p = some target := by
  obtain ⟨g, hg⟩ := Option.isSome_iff_exists.mp hopens
  have hall := List.all_eq_true.mp opens_goto_all s (List.mem_range.mpr (lt_of_step (X := .phrase _) hg))
  simp only [hopens, decide_true, Bool.not_true, Bool.false_or, List.all_eq_true] at hall
  simpa [hconcluded, haccepting] using hall _ (mem_of_lookup h)

theorem action_of_closer {rule : Rule} (hs : s ≠ concluded) (h : action s .finish = .reduce rule) :
    rule.head ≠ .whole ∧ ∀ t ∈ closers, action s t = .reduce rule := by
  obtain ⟨before, hreduces⟩ := reduces_of_action h
  have hlt : s < states.size := by
    apply Nat.lt_of_not_le
    intro hle
    simp [state_of_le hle] at hreduces
  have hall := List.all_eq_true.mp closers_all s (List.mem_range.mpr hlt)
  simpa [h, hs] using hall

theorem ne_of_shift (h : step? s (.terminal t) = some target) : target ≠ concluded ∧ target ≠ accepting := by
  have hall := List.all_eq_true.mp shifts_all s (List.mem_range.mpr (lt_of_step h))
  simpa using List.all_eq_true.mp hall _ (mem_of_lookup h)

theorem phrase_of_goto {p : Phrase} (h : goto? 0 p = some target) :
    (target = concluded → p = .conditional) ∧ (target = accepting → p = .whole) := by
  have hall : (state 0).gotos.all fun (p, target) => (target != concluded || p == .conditional) &&
      (target != accepting || p == .whole) := by
    decide
  simpa [imp_iff_not_or] using List.all_eq_true.mp hall _ (mem_of_lookup h)

theorem eq_accepting_of_goto (h : goto? s .whole = some target) : target = accepting := by
  have hall := List.all_eq_true.mp whole_all s (List.mem_range.mpr (lt_of_step (X := .phrase _) h))
  simpa using List.all_eq_true.mp hall _ (mem_of_lookup h)

theorem action_whole (ht : t ≠ .finish) : action concluded t = .refuse ∧ action accepting t = .refuse := by
  cases t <;> first | exact absurd rfl ht | decide

theorem ne_nil_of_length {rule : Rule} {body : List Nat} (h : body.length = rule.body.length) : body ≠ [] := by
  rintro rfl
  exact rule.body_ne_nil (List.length_eq_zero_iff.mp h.symm)

theorem top_append (h : entered ≠ []) : top (entered ++ outer) = top entered := by
  obtain ⟨s, rest, rfl⟩ := List.exists_cons_of_ne_nil h
  rfl

theorem Shifts.of_step (h : step? (top entered) (.terminal t) = some target) : Shifts t entered (target :: entered) :=
  ⟨entered, target, .refl, h, rfl⟩

theorem Shifts.after (h : Settles t entered next) (hshifts : Shifts t next last) : Shifts t entered last := by
  obtain ⟨settled, target, hsettles, hstep, rfl⟩ := hshifts
  exact ⟨settled, target, h.trans hsettles, hstep, rfl⟩

theorem Settles.action_ne_refuse (h : Settles t entered next) (hnext : action (top next) t ≠ .refuse) :
    action (top entered) t ≠ .refuse := by
  obtain rfl | ⟨mid, hfirst, -⟩ := Relation.ReflTransGen.cases_head h
  · exact hnext
  · cases hfirst with
    | of haction _ _ =>
      rw [haction]
      nofun

theorem Shifts.action_ne_refuse (h : Shifts t entered next) : action (top entered) t ≠ .refuse := by
  obtain ⟨settled, target, hsettles, hstep, -⟩ := h
  refine hsettles.action_ne_refuse ?_
  rw [action_shift_iff.mpr hstep]
  nofun

theorem Shifts.top_ne (h : Shifts t entered next) : top next ≠ concluded ∧ top next ≠ accepting := by
  obtain ⟨settled, target, -, hstep, rfl⟩ := h
  exact ne_of_shift hstep

theorem Reduces.append (h : Reduces t entered next) (hopens : Opens (top outer)) (hconcluded : top next ≠ concluded)
    (haccepting : top next ≠ accepting) : Reduces t (entered ++ outer) (next ++ outer) := by
  cases h with
  | @of body rest rule target haction hlength hgoto =>
    have hbody := ne_nil_of_length hlength
    rw [top_append hbody] at haction
    have hgoto' : goto? (top (rest ++ outer)) rule.head = some target := by
      -- the reduction may have reached the states that were entered before
      cases rest with
      | nil => exact goto_of_opens hopens hgoto hconcluded haccepting
      | cons s rest => exact hgoto
    rw [List.append_assoc, List.cons_append]
    exact .of (by rwa [top_append hbody]) hlength hgoto'

/-- Where an expression may stand, its tokens are shifted as at the start of a text. -/
theorem Shifts.append (h : Shifts t entered next) (ht : t ≠ .finish) (hopens : Opens (top outer)) :
    Shifts t (entered ++ outer) (next ++ outer) := by
  obtain ⟨settled, target, hsettles, hstep, rfl⟩ := h
  have hshift : Shifts t (settled ++ outer) (target :: settled ++ outer) := by
    refine ⟨settled ++ outer, target, .refl, ?_, rfl⟩
    cases settled with
    | nil => exact step_of_opens hopens hstep
    | cons s settled => exact hstep
  induction hsettles using Relation.ReflTransGen.head_induction_on with
  | refl => exact hshift
  | @head entered mid hreduces hsettles ih =>
    have hrefuse : action (top mid) t ≠ .refuse := Shifts.action_ne_refuse ⟨settled, target, hsettles, hstep, rfl⟩
    -- behind the whole, the terminal would be refused
    have hconcluded : top mid ≠ concluded := by
      intro hmid
      exact hrefuse (hmid ▸ (action_whole ht).1)
    have haccepting : top mid ≠ accepting := by
      intro hmid
      exact hrefuse (hmid ▸ (action_whole ht).2)
    exact .after (.single (hreduces.append hopens hconcluded haccepting)) ih

theorem reduces_iff : Reduces t entered next ↔ ∃ body rest rule target, entered = body ++ rest ∧
    next = target :: rest ∧ action (top entered) t = .reduce rule ∧ body.length = rule.body.length ∧
      goto? (top rest) rule.head = some target := by
  constructor
  · rintro ⟨haction, hlength, hgoto⟩
    exact ⟨_, _, _, _, rfl, rfl, haction, hlength, hgoto⟩
  · rintro ⟨body, rest, rule, target, rfl, rfl, haction, hlength, hgoto⟩
    exact .of haction hlength hgoto

theorem Ends.eq_of_accepting {rest : List Nat} (h : Ends (accepting :: rest)) : rest = [] := by
  obtain heq | ⟨mid, hfirst, -⟩ := Relation.ReflTransGen.cases_head h
  · exact (List.cons.inj heq).2
  · obtain ⟨body, rest', rule, target, -, -, haction, -⟩ := reduces_iff.mp hfirst
    obtain ⟨before, hreduces⟩ := reduces_of_action haction
    cases hreduces

theorem Ends.eq_of_concluded {rest : List Nat} (h : Ends (concluded :: rest)) : rest = [] := by
  obtain heq | ⟨mid, hfirst, hlast⟩ := Relation.ReflTransGen.cases_head h
  · exact absurd (List.cons.inj heq).1 (by decide)
  · obtain ⟨body, rest', rule, target, hentered, rfl, haction, hlength, hgoto⟩ := reduces_iff.mp hfirst
    have hrule : action concluded .finish = .reduce .whole := by decide
    cases haction.symm.trans hrule
    obtain ⟨s, rfl⟩ := List.length_eq_one_iff.mp hlength
    cases eq_accepting_of_goto hgoto
    rw [(List.cons.inj hentered).2]
    exact Ends.eq_of_accepting hlast

/-- What could end the text ends with a closing terminal where the expression stands within another one. -/
theorem Ends.settles (h : Ends entered) (hconcluded : top entered ≠ concluded) (haccepting : top entered ≠ accepting)
    (ht : t ∈ closers) (hgoto : goto? (top outer) .conditional = some target) :
    Settles t (entered ++ outer) (target :: outer) := by
  induction h using Relation.ReflTransGen.head_induction_on with
  | refl => exact absurd rfl haccepting
  | @head entered mid hfirst hlast ih =>
    obtain ⟨body, rest, rule, place, rfl, rfl, haction, hlength, hplace⟩ := reduces_iff.mp hfirst
    obtain ⟨hwhole, hclosers⟩ := action_of_closer hconcluded haction
    have hcloses : Reduces t (body ++ rest) (place :: rest) := .of (hclosers t ht) hlength hplace
    have hopens : Opens (top outer) := Option.isSome_iff_exists.mpr ⟨target, hgoto⟩
    by_cases hplace17 : place = concluded
    · -- the expression is complete, and stands for the phrase that is looked for here
      subst hplace17
      cases Ends.eq_of_concluded hlast
      have hhead := (phrase_of_goto hplace).1 rfl
      have hbody := ne_nil_of_length hlength
      have haction' := hclosers t ht
      rw [List.append_nil] at haction' ⊢
      rw [← top_append hbody] at haction'
      exact .single (.of haction' hlength (hhead ▸ hgoto))
    · have hplace22 : place ≠ accepting := by
        rintro rfl
        cases Ends.eq_of_accepting hlast
        exact hwhole ((phrase_of_goto hplace).2 rfl)
      exact .head (hcloses.append hopens hplace17 hplace22) (ih hplace17 hplace22)

/-- The reductions in front of a terminal and its shift, carried out. -/
def shift? (t : Terminal) : Nat → List Nat → Option (List Nat)
  | 0, _ => none
  | fuel + 1, entered => match action (top entered) t with
    | .shift target => some (target :: entered)
    | .reduce rule =>
      let rest := entered.drop rule.body.length
      if rule.body.length ≤ entered.length then
        (goto? (top rest) rule.head).bind fun target => shift? t fuel (target :: rest)
      else none
    | _ => none

theorem Shifts.of_shift? (fuel : Nat) (h : shift? t fuel entered = some next) : Shifts t entered next := by
  induction fuel generalizing entered with
  | zero => cases h
  | succ fuel ih =>
    simp only [shift?] at h
    split at h
    · rename_i haction
      cases h
      exact ⟨entered, _, .refl, action_shift_iff.mp haction, rfl⟩
    · rename_i rule haction
      split at h
      · rename_i hlength
        obtain ⟨target, hgoto, h⟩ := Option.bind_eq_some_iff.mp h
        have hreduces : Reduces t entered (target :: entered.drop rule.body.length) :=
          reduces_iff.mpr ⟨entered.take rule.body.length, _, rule, target,
            (List.take_append_drop _ _).symm, rfl, haction, List.length_take_of_le hlength, hgoto⟩
        exact .after (.single hreduces) (ih h)
      · cases h
    · cases h

end Automaton

open Automaton

namespace Stack

def states (stack : Stack) : List Nat :=
  stack.map (·.state)

theorem top_states (stack : Stack) : top stack.states = stack.state := by
  cases stack <;> rfl

variable {t : Terminal} {stack next rest : Stack} {target : Nat}

theorem Path.reduces {rule : Rule} (hpath : Path stack) (haction : Automaton.action stack.state t = .reduce rule)
    (hnext : reduce? stack rule = some next) : Reduces t stack.states next.states := by
  obtain ⟨body, rest, rfl, -, htop⟩ := hpath.split (enters_of_action haction)
  rw [List.reverse_reverse] at htop
  have hlength : body.length = rule.body.length := by
    rw [← length_trees, htop.length_eq]
  rw [reduce_append hlength, Option.map_eq_some_iff] at hnext
  obtain ⟨target, hgoto, rfl⟩ := hnext
  rw [← top_states] at haction hgoto
  refine reduces_iff.mpr ⟨body.states, rest.states, rule, target, List.map_append, rfl, haction, ?_, hgoto⟩
  rw [states, List.length_map, hlength]

theorem Path.settles {fuel : Nat} (hpath : Path stack) (h : settle t fuel stack = .ok (target, rest)) :
    Settles t stack.states rest.states := by
  induction fuel generalizing stack with
  | zero => cases h
  | succ fuel ih =>
    simp only [settle] at h
    split at h
    · cases h
      exact .refl
    · cases h
      exact .refl
    · cases h
    · rename_i rule haction
      cases hnext : reduce? stack rule with
      | none => simp [hnext] at h
      | some next =>
        rw [hnext] at h
        obtain ⟨hpath', -, -⟩ := hpath.reduce haction hnext
        exact .head (hpath.reduces haction hnext) (ih hpath' h)

theorem Path.shifts {token : Token} (hpath : Path stack) (htoken : token.terminal ≠ .finish)
    (h : stack.feed token = .ok next) : Shifts token.terminal stack.states next.states := by
  unfold feed at h
  cases hsettle : settle token.terminal (reductions stack) stack with
  | error stuck => simp [hsettle, Except.map] at h
  | ok settled =>
    obtain ⟨target, rest⟩ := settled
    simp only [hsettle, Except.map, Except.ok.injEq] at h
    subst h
    obtain ⟨-, -, haction⟩ := settle_eq_ok hpath hsettle
    have hshift := haction.resolve_right fun haccept => htoken (action_accept haccept).2
    refine ⟨rest.states, target, hpath.settles hsettle, ?_, rfl⟩
    rw [top_states]
    exact action_shift_iff.mp hshift

theorem Path.ends {tree : Tree} (hpath : Path stack) (h : stack.finish = .ok tree) : Ends stack.states := by
  unfold finish at h
  cases hsettle : settle .finish (reductions stack) stack with
  | error stuck => simp [hsettle, Except.bind] at h
  | ok settled =>
    obtain ⟨target, rest⟩ := settled
    obtain ⟨hrest, -, haction⟩ := settle_eq_ok hpath hsettle
    have haccept := haction.resolve_left fun hshift => not_shift_finish (action_shift_iff.mp hshift)
    have hstate := (action_accept haccept).1
    have hsettles := hpath.settles hsettle
    cases hrest with
    | empty => cases hstate
    | @push rest frame X hrest hstep _ =>
      have hframe : frame.state = accepting := hstate
      rw [hframe] at hstep
      cases hrest.eq_nil (eq_zero_of_step hstep)
      rwa [states, states, List.map_singleton, hframe] at hsettles

theorem Path.feed {entered : List Nat} (hpath : Path stack) (h : Shifts t stack.states entered) (text : List Char)
    (here : Text.Position) : ∃ next, stack.feed ⟨t, text, here⟩ = .ok next ∧ next.states = entered := by
  obtain ⟨settled, target, hsettles, hstep, rfl⟩ := h
  generalize hentered : stack.states = entered at hsettles
  induction hsettles using Relation.ReflTransGen.head_induction_on generalizing stack with
  | refl =>
    rw [← hentered, top_states] at hstep
    refine ⟨⟨target, .leaf ⟨t, text, here⟩⟩ :: stack, ?_, by rw [← hentered]; rfl⟩
    simp only [Stack.feed, settle_shift (action_shift_iff.mpr hstep), Except.map]
  | @head entered mid hfirst _ ih =>
    obtain ⟨body, rest, rule, place, rfl, rfl, haction, hlength, hgoto⟩ := reduces_iff.mp hfirst
    obtain ⟨frames, below, rfl, hframes, rfl⟩ := List.map_eq_append_iff.mp hentered
    rw [← hentered, top_states] at haction
    have hgoto' : goto? (state below) rule.head = some place := by
      rw [← top_states]
      exact hgoto
    have hnext : reduce? (frames ++ below) rule = some (⟨place, .node rule (trees frames)⟩ :: below) := by
      rw [reduce_append (by rw [← hlength, ← hframes, List.length_map]), hgoto', Option.map_some]
    obtain ⟨next, hfeed, hstates⟩ := ih (hpath.reduce haction hnext).1 rfl
    refine ⟨next, ?_, hstates⟩
    rwa [Stack.feed, settle_reduce hpath haction hnext]

end Stack

end RoutineFlow.Expr
