import RoutineFlow.Proofs.Breaks
import RoutineFlow.Proofs.Contexts
import RoutineFlow.Proofs.Displacement

/-!
Blanks between tokens do not matter: a text whose tokens have other blanks between them, though some where there were
some before, has the same tokens, and so the same parse.
-/

namespace RoutineFlow.Expr

open Automaton (top Shifts Ends)
open Lexeme (place)
open Lexer (IsBreak)

/-- Lexemes that are read in front of what follows, from the states that were entered before. -/
inductive Reading (following : List Char) : List Nat → List Lexeme → List Nat → Prop
  | done {entered : List Nat} : Reading following entered [] entered
  | next {entered next last : List Nat} {l : Lexeme} {lexemes : List Lexeme} :
      (∀ c ∈ l.gap, Lexer.isIgnored c = true) → (∀ c ∈ l.spelling.head?, Lexer.isIgnored c = false) →
      Lexer.scan? (Automaton.accepted (top entered)) (l.spelling ++ (l.gap ++ (Lexeme.text lexemes ++ following))) =
        some (l.terminal, l.spelling) →
      Shifts l.terminal entered next → Reading following next lexemes last →
        Reading following entered (l :: lexemes) last

/-- Texts that are the same up to a break, or as a whole. -/
def Parted (before after : List Char) : Prop :=
  after = before ∨ ∃ v y b z, before = v ++ y ∧ after = v ++ b :: z ∧ IsBreak b

namespace Parted

variable {before after : List Char}

theorem refl (cs : List Char) : Parted cs cs :=
  .inl rfl

theorem of_break {b : Char} (hb : IsBreak b) (before after : List Char) : Parted before (b :: after) :=
  .inr ⟨[], before, b, after, rfl, rfl, hb⟩

theorem append (h : Parted before after) (u : List Char) : Parted (u ++ before) (u ++ after) := by
  obtain rfl | ⟨v, y, b, z, rfl, rfl, hb⟩ := h
  · exact .refl _
  · exact .inr ⟨u ++ v, y, b, z, by simp, by simp, hb⟩

theorem scan {accepted : List Terminal} {t : Terminal} {spelling : List Char} (h : Parted before after)
    (hscan : Lexer.scan? accepted (spelling ++ before) = some (t, spelling)) :
    Lexer.scan? accepted (spelling ++ after) = some (t, spelling) := by
  obtain rfl | ⟨v, y, b, z, rfl, rfl, hb⟩ := h
  · exact hscan
  · rw [← List.append_assoc] at hscan ⊢
    exact Lexer.scan?_break hscan (List.prefix_append spelling v) hb

end Parted

/-- A lexeme with other blanks behind it, though some if there were some. -/
structure Lexeme.Respaced (l l' : Lexeme) : Prop where
  terminal : l'.terminal = l.terminal
  spelling : l'.spelling = l.spelling
  blank : ∀ c ∈ l'.gap, Lexer.isIgnored c = true
  kept : l'.gap = [] → l.gap = []

namespace Lexeme.Respaced

variable {l l' : Lexeme} {lexemes lexemes' : List Lexeme} {before after : List Char}

theorem parted_gap (h : l.Respaced l') (hparted : Parted before after) :
    Parted (l.gap ++ before) (l'.gap ++ after) := by
  cases hgap : l'.gap with
  | nil =>
    rw [h.kept hgap]
    exact hparted
  | cons b gap =>
    have hb : Lexer.isIgnored b = true := h.blank b (by simp [hgap])
    exact .of_break (.inl hb) _ _

theorem parted (h : List.Forall₂ Respaced lexemes lexemes') (hparted : Parted before after) :
    Parted (text lexemes ++ before) (text lexemes' ++ after) := by
  induction h with
  | nil => exact hparted
  | cons hl _ ih =>
    rw [text_cons, text_cons, hl.spelling]
    simp only [List.append_assoc]
    exact (hl.parted_gap ih).append _

theorem alike (h : List.Forall₂ Respaced lexemes lexemes') (here here' : Text.Position) :
    List.Forall₂ Alike (place here lexemes) (place here' lexemes') := by
  induction h generalizing here here' with
  | nil => exact .nil
  | cons hl _ ih => exact .cons ⟨hl.terminal, hl.spelling⟩ (ih _ _)

end Lexeme.Respaced

namespace Reading

variable {entered next last : List Nat} {lexemes lexemes' : List Lexeme} {following following' : List Char}

theorem append (h : Reading (Lexeme.text lexemes' ++ following) entered lexemes next)
    (h' : Reading following next lexemes' last) : Reading following entered (lexemes ++ lexemes') last := by
  induction h with
  | done => exact h'
  | next hgap hstart hscan hshifts _ ih =>
    rw [List.cons_append]
    refine .next hgap hstart ?_ hshifts (ih h')
    rwa [Lexeme.text_append, List.append_assoc]

theorem blank (h : Reading following entered lexemes last) :
    ∀ l ∈ lexemes, ∀ c ∈ l.gap, Lexer.isIgnored c = true := by
  induction h with
  | done => simp
  | next hgap _ _ _ _ ih => exact List.forall_mem_cons.mpr ⟨hgap, ih⟩

theorem respaced_self (h : Reading following entered lexemes last) : List.Forall₂ Lexeme.Respaced lexemes lexemes :=
  List.forall₂_same.mpr fun l hl => ⟨rfl, rfl, h.blank l hl, id⟩

theorem respaced (h : Reading following entered lexemes last) (hlexemes : List.Forall₂ Lexeme.Respaced lexemes lexemes')
    (hfollowing : Parted following following') : Reading following' entered lexemes' last := by
  induction h generalizing lexemes' with
  | done =>
    cases hlexemes
    exact .done
  | next _ hstart hscan hshifts _ ih =>
    cases hlexemes with
    | cons hl hlexemes =>
      -- what stands behind the spelling is the same up to the first blank that is new
      have hparted := hl.parted_gap (Lexeme.Respaced.parted hlexemes hfollowing)
      refine .next hl.blank (by rwa [hl.spelling]) ?_ (by rwa [hl.terminal]) (ih hlexemes)
      rw [hl.terminal, hl.spelling]
      exact hparted.scan hscan

theorem lexed (h : Reading [] entered lexemes last) {stack : Stack} (hpath : Stack.Path stack)
    (hentered : stack.states = entered) {gap : List Char} (hgap : ∀ c ∈ gap, Lexer.isIgnored c = true)
    (here : Text.Position) : Lexed stack here (gap ++ Lexeme.text lexemes) (place (here.advance gap) lexemes) := by
  induction h generalizing stack gap here with
  | done =>
    refine .done ?_
    rw [Lexeme.text, List.flatMap_nil, List.append_nil]
    exact List.dropWhile_eq_nil_iff.mpr hgap
  | @next entered next last l lexemes hblank hstart hscan hshifts _ ih =>
    subst hentered
    rw [List.append_nil, Stack.top_states] at hscan
    obtain ⟨hdrop, htake⟩ := Lexeme.pass (Lexer.ne_nil_of_scan hscan) hstart hgap (l.gap ++ Lexeme.text lexemes)
    obtain ⟨next, hfeed, hnext⟩ := hpath.feed hshifts l.spelling (here.advance gap)
    have hdelivered : Delivered ⟨l.terminal, l.spelling, here.advance gap⟩ := ⟨_, _, hscan⟩
    have hpath' := (Stack.feed_eq_ok hpath hdelivered.ne_finish hfeed).1
    rw [Lexeme.text_cons, place]
    refine .token hdrop (by rw [htake]) hscan hfeed ?_
    rw [List.drop_left]
    exact ih hpath' hnext hblank _

end Reading

theorem Lexed.reading {stack : Stack} {here : Text.Position} {cs : List Char} {tokens : List Token} {tree : Tree}
    (h : Lexed stack here cs tokens) (hpath : Stack.Path stack) (hderive : deriveFrom stack tokens = .ok tree) :
    ∃ lead lexemes last, cs = lead ++ Lexeme.text lexemes ∧ (∀ c ∈ lead, Lexer.isIgnored c = true) ∧
      tokens = place (here.advance lead) lexemes ∧ Reading [] stack.states lexemes last ∧ Ends last := by
  induction h with
  | @done stack here cs hend =>
    refine ⟨cs, [], stack.states, (List.append_nil cs).symm, ?_, rfl, .done, hpath.ends hderive⟩
    exact List.dropWhile_eq_nil_iff.mp hend
  | @token stack next here p cs rest spelling t tokens hrest hp hscan hfeed _ ih =>
    have hdelivered : Delivered ⟨t, spelling, p⟩ := ⟨_, _, hscan⟩
    have hpath' := (Stack.feed_eq_ok hpath hdelivered.ne_finish hfeed).1
    simp only [deriveFrom, hfeed, Except.bind] at hderive
    obtain ⟨lead, lexemes, last, hcs, hlead, rfl, hreading, hends⟩ := ih hpath' hderive
    obtain ⟨after, rfl⟩ := Lexer.scan?_begins hscan
    rw [List.drop_left] at hcs
    subst hcs hp
    refine ⟨cs.takeWhile Lexer.isIgnored, ⟨t, spelling, lead⟩ :: lexemes, last, ?_,
      fun c hc => List.mem_takeWhile_imp hc, rfl, .next hlead ?_ ?_ ?_ hreading, hends⟩
    · rw [Lexeme.text_cons, ← hrest, List.takeWhile_append_dropWhile]
    · intro c hc
      have hhead := List.head?_dropWhile_not Lexer.isIgnored cs
      rw [hrest, List.head?_append_of_ne_nil _ (Lexer.ne_nil_of_scan hscan), Option.mem_def.mp hc] at hhead
      simpa using hhead
    · rwa [List.append_nil, Stack.top_states]
    · exact hpath.shifts hdelivered.ne_finish hfeed

theorem exists_reading [CharNames] {source : String} {e : Expr} (h : parse source = .ok e) :
    ∃ lead lexemes last, source.toList = lead ++ Lexeme.text lexemes ∧ (∀ c ∈ lead, Lexer.isIgnored c = true) ∧
      Reading [] [] lexemes last ∧ Ends last ∧ Spells .whole (place (Text.Position.start.advance lead) lexemes) e := by
  obtain ⟨tokens, hlexed, hspells⟩ := parse_eq_ok.mp h
  obtain ⟨tree, hderives, -⟩ := hspells.derived
  obtain ⟨lead, lexemes, last, hsource, hlead, rfl, hreading, hends⟩ :=
    hlexed.reading .empty (derive_complete hderives)
  exact ⟨lead, lexemes, last, hsource, hlead, hreading, hends, hspells⟩

theorem Reading.parse [CharNames] {source : String} {e : Expr} {lead : List Char} {lexemes : List Lexeme}
    {last : List Nat} (h : Reading [] [] lexemes last) (hsource : source.toList = lead ++ Lexeme.text lexemes)
    (hlead : ∀ c ∈ lead, Lexer.isIgnored c = true)
    (hspells : Spells .whole (place (Text.Position.start.advance lead) lexemes) e) : parse source = .ok e := by
  have hlexed := h.lexed .empty rfl hlead .start
  rw [← hsource] at hlexed
  exact parse_eq_ok.mpr ⟨_, hlexed, hspells⟩

/-- A text that is parsed is its tokens and the blanks in front of them and behind each. With more blanks in front or
behind any token, or others in place of some, it has the same parse. -/
theorem blanks_insignificant [CharNames] {source : String} {e : Expr} (h : parse source = .ok e) :
    ∃ lead lexemes, source.toList = lead ++ Lexeme.text lexemes ∧
      Lexed [] .start source.toList (place (Text.Position.start.advance lead) lexemes) ∧
      (∀ c ∈ lead, Lexer.isIgnored c = true) ∧ (∀ l ∈ lexemes, ∀ c ∈ l.gap, Lexer.isIgnored c = true) ∧
      ∀ lead' lexemes', (∀ c ∈ lead', Lexer.isIgnored c = true) → List.Forall₂ Lexeme.Respaced lexemes lexemes' →
        parse (String.ofList (lead' ++ Lexeme.text lexemes')) = .ok e := by
  obtain ⟨lead, lexemes, last, hsource, hlead, hreading, -, hspells⟩ := exists_reading h
  refine ⟨lead, lexemes, hsource, ?_, hlead, hreading.blank, ?_⟩
  · rw [hsource]
    exact hreading.lexed .empty rfl hlead .start
  · intro lead' lexemes' hlead' hrespaced
    have hreading' := hreading.respaced hrespaced (.refl [])
    exact hreading'.parse String.toList_ofList hlead' (hspells.alike (Lexeme.Respaced.alike hrespaced _ _))

/-- A name like a keyword behind a point, and a keyword right behind a numeral. -/
def crammed : String :=
  "a.or>=5or b"

def crammedExpr : Expr :=
  .logical .or (.binary (.order .ge) (.member (.name "a") "or") (.numeral (.int 5))) (.name "b")

theorem crammed_respaced : parse crammed = .ok crammedExpr ∧
    ∃ lead lexemes, crammed.toList = lead ++ Lexeme.text lexemes ∧
      ∀ lexemes', List.Forall₂ Lexeme.Respaced lexemes lexemes' →
        parse (String.ofList (lead ++ Lexeme.text lexemes')) = .ok crammedExpr := by
  have hparse : parse crammed = .ok crammedExpr := by cbv
  obtain ⟨lead, lexemes, hsource, -, hlead, -, hrespaced⟩ := blanks_insignificant hparse
  exact ⟨hparse, lead, lexemes, hsource, fun lexemes' => hrespaced lead lexemes' hlead⟩

end RoutineFlow.Expr
