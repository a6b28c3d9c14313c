import RoutineFlow.Proofs.Numerals
import RoutineFlow.Proofs.Parsing
import RoutineFlow.Proofs.Quoting

/-!
Texts that are put together from tokens, with blanks behind some, are taken apart into the same tokens, as long as each
token is the one that is looked for.
-/

namespace RoutineFlow.Expr

namespace Automaton

theorem mem_accepted {s : Nat} {t : Terminal} (ht : t ≠ .finish) (h : action s t ≠ .refuse) :
    t ∈ accepted s := by
  unfold action at h
  unfold accepted
  rw [List.mem_append]
  cases hshift : (state s).shifts.lookup t with
  | some target =>
    left
    have hmem := mem_of_lookup hshift
    exact List.mem_map_of_mem (f := (·.1)) hmem
  | none =>
    right
    simp only [hshift] at h
    cases hreduce : (state s).reduces with
    | none => simp [hreduce, ht] at h
    | some reduction =>
      simp only [hreduce] at h
      split at h
      · rename_i hbefore
        simpa using hbefore
      · simp at h

end Automaton

theorem Stack.mem_accepted {stack next : Stack} {t : Terminal} {spelling : List Char} {here : Text.Position}
    (ht : t ≠ .finish) (h : stack.feed ⟨t, spelling, here⟩ = .ok next) :
    t ∈ Automaton.accepted stack.state := by
  apply Automaton.mem_accepted ht
  intro hrefuse
  simp [feed, reductions, Nat.mul_add, settle, hrefuse, Except.map] at h

/-- A token as it is written, with the blanks behind it. -/
structure Lexeme where
  terminal : Terminal
  spelling : List Char
  gap : List Char

namespace Lexeme

def text (lexemes : List Lexeme) : List Char :=
  lexemes.flatMap fun l => l.spelling ++ l.gap

/-- The tokens of lexemes that are written from a place on. -/
def place : Text.Position → List Lexeme → List Token
  | _, [] => []
  | here, l :: rest =>
    ⟨l.terminal, l.spelling, here⟩ :: place ((here.advance l.spelling).advance l.gap) rest

/-- Wherever its terminal is accepted, a lexeme is read as a whole in front of what follows. -/
structure Readable (l : Lexeme) (following : List Char) : Prop where
  gap : ∀ c ∈ l.gap, Lexer.isIgnored c = true
  start : ∀ c ∈ l.spelling.head?, Lexer.isIgnored c = false
  scan : ∀ accepted, l.terminal ∈ accepted →
    Lexer.scan? accepted (l.spelling ++ (l.gap ++ following)) = some (l.terminal, l.spelling)

/-- Each lexeme is readable in front of the others and what follows. -/
def AllReadable : List Lexeme → List Char → Prop
  | [], _ => True
  | l :: lexemes, following => l.Readable (text lexemes ++ following) ∧ AllReadable lexemes following

theorem text_cons (l : Lexeme) (lexemes : List Lexeme) :
    text (l :: lexemes) = l.spelling ++ (l.gap ++ text lexemes) := by
  simp [text]

theorem text_append (lexemes others : List Lexeme) : text (lexemes ++ others) = text lexemes ++ text others := by
  simp [text]

theorem advance_append (here : Text.Position) (cs cs' : List Char) :
    here.advance (cs ++ cs') = (here.advance cs).advance cs' :=
  List.foldl_append

theorem place_append (here : Text.Position) (lexemes others : List Lexeme) :
    place here (lexemes ++ others) = place here lexemes ++ place (here.advance (text lexemes)) others := by
  induction lexemes generalizing here with
  | nil => rfl
  | cons l lexemes ih =>
    rw [List.cons_append, place, place, ih, text_cons, advance_append, advance_append, List.cons_append]

theorem AllReadable.append {lexemes others : List Lexeme} {following : List Char}
    (h : AllReadable lexemes (text others ++ following)) (hothers : AllReadable others following) :
    AllReadable (lexemes ++ others) following := by
  induction lexemes with
  | nil => exact hothers
  | cons l lexemes ih =>
    obtain ⟨hl, hlexemes⟩ := h
    rw [List.cons_append]
    refine ⟨?_, ih hlexemes⟩
    rwa [text_append, List.append_assoc]

theorem Readable.ne_finish {l : Lexeme} {following : List Char} (h : l.Readable following) :
    l.terminal ≠ .finish := by
  have hdelivered : Delivered ⟨l.terminal, l.spelling, .start⟩ :=
    ⟨[l.terminal], _, h.scan _ (by simp)⟩
  exact hdelivered.ne_finish

/-- Blanks in front of a token are passed, and nothing of it. -/
theorem pass {spelling gap : List Char} (hne : spelling ≠ [])
    (hstart : ∀ c ∈ spelling.head?, Lexer.isIgnored c = false) (hgap : ∀ c ∈ gap, Lexer.isIgnored c = true)
    (rest : List Char) : (gap ++ (spelling ++ rest)).dropWhile Lexer.isIgnored = spelling ++ rest ∧
      (gap ++ (spelling ++ rest)).takeWhile Lexer.isIgnored = gap := by
  obtain ⟨c, cs, rfl⟩ := List.exists_cons_of_ne_nil hne
  have hc : Lexer.isIgnored c = false := hstart c rfl
  rw [List.dropWhile_append_of_pos hgap, List.takeWhile_append_of_pos hgap]
  simp [hc]

theorem Readable.ne_nil {l : Lexeme} {following : List Char} (h : l.Readable following) : l.spelling ≠ [] :=
  Lexer.ne_nil_of_scan (h.scan [l.terminal] (by simp))

theorem lexed {lexemes : List Lexeme} (h : AllReadable lexemes []) {stack : Stack} {here : Text.Position}
    {gap : List Char} {tree : Tree} (hgap : ∀ c ∈ gap, Lexer.isIgnored c = true)
    (hderive : deriveFrom stack (place (here.advance gap) lexemes) = .ok tree) :
    Lexed stack here (gap ++ text lexemes) (place (here.advance gap) lexemes) := by
  induction lexemes generalizing stack here gap with
  | nil =>
    apply Lexed.done
    rw [text, List.flatMap_nil, List.append_nil]
    exact List.dropWhile_eq_nil_iff.mpr hgap
  | cons l lexemes ih =>
    obtain ⟨hl, hlexemes⟩ := h
    rw [List.append_nil] at hl
    obtain ⟨hdrop, htake⟩ := pass hl.ne_nil hl.start hgap (l.gap ++ text lexemes)
    simp only [place, deriveFrom] at hderive ⊢
    cases hfeed : stack.feed ⟨l.terminal, l.spelling, here.advance gap⟩ with
    | error stuck => simp [hfeed, Except.bind] at hderive
    | ok next =>
      simp only [hfeed, Except.bind] at hderive
      -- What can be fed is accepted, so it is among what the lexer looks for.
      have haccepted := Stack.mem_accepted hl.ne_finish hfeed
      have hrest := ih hlexemes hl.gap hderive
      rw [text_cons]
      apply Lexed.token hdrop (by rw [htake]) (hl.scan _ haccepted) hfeed
      rwa [List.drop_left]

end Lexeme

theorem parse_lexemes [CharNames] {lexemes : List Lexeme} {e : Expr} (h : Lexeme.AllReadable lexemes [])
    (hspells : Spells .whole (Lexeme.place .start lexemes) e) :
    parse (String.ofList (Lexeme.text lexemes)) = .ok e := by
  obtain ⟨tree, hderives, -⟩ := hspells.derived
  have hderive := derive_complete hderives
  have hnone : ∀ c ∈ ([] : List Char), Lexer.isIgnored c = true := by simp
  have hlexed := Lexeme.lexed h hnone hderive
  apply parse_eq_ok.mpr
  rw [String.toList_ofList]
  exact ⟨_, hlexed, hspells⟩

end RoutineFlow.Expr
