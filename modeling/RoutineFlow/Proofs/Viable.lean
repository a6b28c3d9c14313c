import RoutineFlow.Proofs.Completion
import RoutineFlow.Proofs.Results

/-!
A syntax problem is placed at the first fault of a text: what stands in front of it is the beginning of some text that is
accepted. The end of a text borrows the place of its last token.
-/

namespace RoutineFlow

namespace Text

/-- Only a line feed ends a line. -/
def lines (cs : List Char) : List (List Char) :=
  cs.splitOn '\n'

/-- The characters in front of a line and column, which are counted from one. -/
def upTo (cs : List Char) (line column : Nat) : List Char :=
  let all := lines cs
  ['\n'].intercalate (all.take (line - 1) ++ [((all.drop (line - 1)).headD []).take (column - 1)])

variable {c : Char} {cs before after : List Char}

theorem lines_cons : lines (c :: cs) = if c = '\n' then [] :: lines cs else (lines cs).modifyHead (c :: ·) := by
  simp [lines, List.splitOn, List.splitOnP_cons_eq_if_modifyHead]

theorem exists_lines (p : Position) (before after : List Char) :
    ∃ full line rest others, lines (before ++ after) = full ++ (line ++ rest) :: others ∧
      before = ['\n'].intercalate (full ++ [line]) ∧ (p.advance before).line = p.line + full.length ∧
        (p.advance before).column = (if full = [] then p.column else 1) + line.length := by
  induction before generalizing p with
  | nil =>
    obtain ⟨rest, others, hlines⟩ := List.exists_cons_of_ne_nil (List.splitOnP_ne_nil (· == '\n') after)
    exact ⟨[], [], rest, others, hlines, by simp, rfl, rfl⟩
  | cons c before ih =>
    obtain ⟨full, line, rest, others, hlines, hbefore, hline, hcolumn⟩ := ih (p.next c)
    have hadvance : p.advance (c :: before) = (p.next c).advance before := rfl
    rw [List.cons_append, lines_cons, hlines, hadvance, hline, hcolumn]
    by_cases hc : c = '\n'
    · refine ⟨[] :: full, line, rest, others, by simp [hc], ?_, ?_, ?_⟩
      · rw [List.cons_append, List.intercalate_cons_of_ne_nil (by simp), ← hbefore, hc]
        rfl
      · simp [Position.next, hc]
        omega
      · simp [Position.next, hc]
    · cases full with
      | nil =>
        refine ⟨[], c :: line, rest, others, by simp [hc], ?_, ?_, ?_⟩
        · rw [hbefore]
          simp
        · simp [Position.next, hc]
        · simp [Position.next, hc]
          omega
      | cons first full =>
        refine ⟨(c :: first) :: full, line, rest, others, by simp [hc], ?_, ?_, ?_⟩
        · rw [hbefore, List.cons_append, List.cons_append, List.intercalate_cons_of_ne_nil (by simp),
            List.intercalate_cons_of_ne_nil (by simp)]
          rfl
        · simp [Position.next, hc]
        · simp

/-- The place behind a beginning of a text lies in it or at its end, and that beginning stands in front of it. -/
theorem place_of_beginning (before after : List Char) :
    1 ≤ (Position.start.advance before).line ∧ 1 ≤ (Position.start.advance before).column ∧
      (∃ line, (lines (before ++ after))[(Position.start.advance before).line - 1]? = some line ∧
        (Position.start.advance before).column ≤ line.length + 1) ∧
      upTo (before ++ after) (Position.start.advance before).line (Position.start.advance before).column = before := by
  obtain ⟨full, line, rest, others, hlines, hbefore, hline, hcolumn⟩ := exists_lines .start before after
  have hcolumn : (Position.start.advance before).column = 1 + line.length := by
    rw [hcolumn]
    simp [Position.start]
  have hline : (Position.start.advance before).line = 1 + full.length := hline
  rw [hline, hcolumn, upTo, hlines]
  refine ⟨by omega, by omega, ⟨line ++ rest, by simp, ?_⟩, ?_⟩
  · rw [List.length_append]
    omega
  · rw [hbefore]
    simp

end Text

namespace Expr

open Lexeme (place)
open Lexer (isIgnored)

/-- From the stack on, the text is read and derived to its end. -/
def Accepts (stack : Stack) (here : Text.Position) (cs : List Char) : Prop :=
  ∃ tokens tree, Lexed stack here cs tokens ∧ deriveFrom stack tokens = .ok tree

theorem Accepts.deriveText {cs : List Char} (h : Accepts [] .start cs) : ∃ tree, deriveText cs = .ok tree := by
  obtain ⟨tokens, tree, hlexed, hderive⟩ := h
  have htokens : ∀ token ∈ tokens, token.terminal ≠ .finish :=
    fun token hmem => (hlexed.delivered token hmem).ne_finish
  exact ⟨tree, deriveText_eq_ok.mpr ⟨tokens, hlexed, (derive_eq_ok htokens).mp hderive⟩⟩

/-- What has been read leads to a stack from which the rest is read. -/
theorem Reading.resume {following : List Char} {entered last : List Nat} {lexemes : List Lexeme}
    (h : Reading following entered lexemes last) {stack : Stack} (hpath : Stack.Path stack)
    (hentered : stack.states = entered) {gap : List Char} (hgap : ∀ c ∈ gap, isIgnored c = true)
    (here : Text.Position) : ∃ next gap' here', Stack.Path next ∧ next.states = last ∧ (∀ c ∈ gap', isIgnored c = true) ∧
      (Accepts next here' (gap' ++ following) → Accepts stack here (gap ++ (Lexeme.text lexemes ++ following))) := by
  induction h generalizing stack gap here with
  | done => exact ⟨stack, gap, here, hpath, hentered, hgap, id⟩
  | @next entered next last l lexemes hblank hstart hscan hshifts _ ih =>
    subst hentered
    rw [Stack.top_states] at hscan
    obtain ⟨hdrop, htake⟩ := Lexeme.pass (Lexer.ne_nil_of_scan hscan) hstart hgap
      (l.gap ++ (Lexeme.text lexemes ++ following))
    obtain ⟨next, hfeed, hnext⟩ := hpath.feed hshifts l.spelling (here.advance gap)
    have hdelivered : Delivered ⟨l.terminal, l.spelling, here.advance gap⟩ := ⟨_, _, hscan⟩
    have hpath' := (Stack.feed_eq_ok hpath hdelivered.ne_finish hfeed).1
    obtain ⟨stack', gap', here', hstack', hstates, hgap', haccepts⟩ :=
      ih hpath' hnext hblank ((here.advance gap).advance l.spelling)
    refine ⟨stack', gap', here', hstack', hstates, hgap', fun h => ?_⟩
    obtain ⟨tokens, tree, hlexed, hderive⟩ := haccepts h
    refine ⟨⟨l.terminal, l.spelling, here.advance gap⟩ :: tokens, tree, ?_, ?_⟩
    · rw [Lexeme.text_cons, List.append_assoc, List.append_assoc]
      refine .token hdrop (by rw [htake]) hscan hfeed ?_
      rwa [List.drop_left]
    · simp only [deriveFrom, hfeed, Except.bind, hderive]

/-- A spelling of a terminal that rules can be finished with. -/
def fillerText : Terminal → List Char
  | .colon => [':']
  | .closeParen => [')']
  | .closeBracket => [']']
  | .closeBrace => ['}']
  | _ => ['x']

def fillerLexeme (t : Terminal) : Lexeme :=
  ⟨t, fillerText t, [' ']⟩

theorem readable_filler {t : Terminal} (h : t ∈ Symbol.fillers) (following : List Char) :
    (fillerLexeme t).Readable following := by
  simp only [Symbol.fillers, List.mem_cons, List.not_mem_nil, or_false] at h
  obtain rfl | rfl | rfl | rfl | rfl := h
  · refine ⟨blank_space, by simp [fillerLexeme, fillerText, isIgnored], fun accepted haccepted => ?_⟩
    have hname : Lexer.nameTerminal accepted ['x'] = .name := by
      apply Lexer.nameTerminal_eq_name
      intro t _
      cases t <;> simp [Terminal.keyword?]
    have hblank : ∀ c ∈ ([' '] ++ following).head?, Lexer.isNamePart c = false := by
      rintro c ⟨⟩
      rfl
    have hscan := @Lexer.scan?_of_name accepted ['x'] ([' '] ++ following) rfl haccepted hblank
    rwa [hname] at hscan
  · exact Lexeme.readable_plain (by simp [fillerText, Terminal.signs]) (by simp) blank_space following
  · exact Lexeme.readable_plain (by simp [fillerText, Terminal.signs]) (by simp) blank_space following
  · exact Lexeme.readable_plain (by simp [fillerText, Terminal.signs]) (by simp) blank_space following
  · exact Lexeme.readable_plain (by simp [fillerText, Terminal.signs]) (by simp) blank_space following

theorem allReadable_fillers {ts : List Terminal} (h : ∀ t ∈ ts, t ∈ Symbol.fillers) :
    Lexeme.AllReadable (ts.map fillerLexeme) [] := by
  induction ts with
  | nil => trivial
  | cons t ts ih =>
    obtain ⟨ht, hts⟩ := List.forall_mem_cons.mp h
    exact ⟨readable_filler ht _, ih hts⟩

theorem terminals_place (here : Text.Position) (lexemes : List Lexeme) :
    (place here lexemes).map (·.terminal) = lexemes.map (·.terminal) := by
  induction lexemes generalizing here with
  | nil => rfl
  | cons l lexemes ih => rw [place, List.map_cons, List.map_cons, ih]

/-- Behind a blank, the same text completes whatever led to the states. -/
theorem exists_completion {entered : List Nat} (h : Stack.Completable entered) :
    ∃ more : List Char, ∀ (stack : Stack) (here : Text.Position) (gap : List Char), Stack.Path stack →
      stack.states = entered → (∀ c ∈ gap, isIgnored c = true) → Accepts stack here (gap ++ ' ' :: more) := by
  obtain ⟨ts, hts, hcomplete⟩ := h
  refine ⟨Lexeme.text (ts.map fillerLexeme), fun stack here gap hpath hstates hgap => ?_⟩
  have hgap' : ∀ c ∈ gap ++ [' '], isIgnored c = true := List.forall_mem_append.mpr ⟨hgap, blank_space⟩
  have hterminals : (place (here.advance (gap ++ [' '])) (ts.map fillerLexeme)).map (·.terminal) = ts := by
    rw [terminals_place, List.map_map]
    exact List.map_id ts
  obtain ⟨tree, htree⟩ := hcomplete stack hpath hstates _ hterminals
  have hlexed := Lexeme.lexed (allReadable_fillers hts) hgap' htree
  rw [List.append_assoc] at hlexed
  exact ⟨_, tree, hlexed, htree⟩

/-- The text is the beginning of one that can be derived. -/
def Viable (cs : List Char) : Prop :=
  ∃ rest tree, deriveText (cs ++ rest) = .ok tree

theorem Reading.viable {following lead : List Char} {lexemes : List Lexeme} {last : List Nat}
    (h : Reading following [] lexemes last) (hlead : ∀ c ∈ lead, isIgnored c = true) :
    Viable (lead ++ Lexeme.text lexemes) := by
  obtain ⟨next, -, -, hnext, rfl, -⟩ := h.resume .empty rfl hlead .start
  obtain ⟨more, hmore⟩ := exists_completion hnext.completable
  -- the blank in front of what completes the text keeps its last token as it is
  have hbreak : Lexer.IsBreak ' ' := .inl (by decide)
  have hreading := h.respaced h.respaced_self (.of_break hbreak following more)
  obtain ⟨next', gap, here, hnext', hstates, hgap, haccepts⟩ := hreading.resume .empty rfl hlead .start
  obtain ⟨tree, htree⟩ := (haccepts (hmore next' here gap hnext' hstates hgap)).deriveText
  exact ⟨' ' :: more, tree, by rwa [List.append_assoc]⟩

/-- The place is behind a beginning of the text that is read from the stack on. -/
def ReadsTo (stack : Stack) (here : Text.Position) (cs : List Char) (p : Text.Position) : Prop :=
  ∃ lead lexemes rest entered, cs = lead ++ (Lexeme.text lexemes ++ rest) ∧ (∀ c ∈ lead, isIgnored c = true) ∧
    Reading rest stack.states lexemes entered ∧ p = here.advance (lead ++ Lexeme.text lexemes)

variable {stack next : Stack} {here p : Text.Position} {cs : List Char}

/-- Behind the blanks, nothing else has been read yet. -/
theorem ReadsTo.blanks (stack : Stack) (here : Text.Position) (cs : List Char) :
    ReadsTo stack here cs (here.advance (cs.takeWhile isIgnored)) :=
  ⟨cs.takeWhile isIgnored, [], cs.dropWhile isIgnored, stack.states, by simp [Lexeme.text],
    fun c hc => List.mem_takeWhile_imp hc, .done, by simp [Lexeme.text]⟩

theorem ReadsTo.token {t : Terminal} {spelling rest : List Char} (hpath : Stack.Path stack)
    (hrest : cs.dropWhile isIgnored = spelling ++ rest)
    (hscan : Lexer.scan? (Automaton.accepted stack.state) (cs.dropWhile isIgnored) = some (t, spelling))
    (hfeed : stack.feed ⟨t, spelling, here.advance (cs.takeWhile isIgnored)⟩ = .ok next)
    (h : ReadsTo next ((here.advance (cs.takeWhile isIgnored)).advance spelling) rest p) : ReadsTo stack here cs p := by
  obtain ⟨lead, lexemes, rest', entered, rfl, hlead, hreading, rfl⟩ := h
  have hdelivered : Delivered ⟨t, spelling, here.advance (cs.takeWhile isIgnored)⟩ := ⟨_, _, hscan⟩
  have hstart : ∀ d ∈ spelling.head?, isIgnored d = false := by
    intro d hd
    have hhead := List.head?_dropWhile_not isIgnored cs
    rw [hrest, List.head?_append_of_ne_nil _ (Lexer.ne_nil_of_scan hscan), Option.mem_def.mp hd] at hhead
    simpa using hhead
  have hscan' : Lexer.scan? (Automaton.accepted (Automaton.top stack.states))
      (spelling ++ (lead ++ (Lexeme.text lexemes ++ rest'))) = some (t, spelling) := by
    rwa [Stack.top_states, ← hrest]
  refine ⟨cs.takeWhile isIgnored, ⟨t, spelling, lead⟩ :: lexemes, rest', entered, ?_,
    fun c hc => List.mem_takeWhile_imp hc,
    .next hlead hstart hscan' (hpath.shifts hdelivered.ne_finish hfeed) hreading, ?_⟩
  · rw [Lexeme.text_cons, List.append_assoc, List.append_assoc, ← hrest, List.takeWhile_append_dropWhile]
  · rw [Lexeme.text_cons]
    simp [Lexeme.advance_append]

/-- Where a problem is placed, a beginning of the text has been read, or it is placed at the last token. -/
theorem parseFrom_eq_error {fuel : Nat} {last : Option Token} {problem : SyntaxProblem} (hpath : Stack.Path stack)
    (h : parseFrom fuel stack last here cs = .error problem) (hp : problem.position? = some p) :
    p = endPosition last ∨ ReadsTo stack here cs p := by
  induction fuel generalizing stack last here cs with
  | zero =>
    cases h
    cases hp
    exact .inl rfl
  | succ fuel ih =>
    have hblanks := ReadsTo.blanks stack here cs
    simp only [parseFrom] at h
    split at h
    · split at h
      · cases h
      · cases h
        cases hp
        exact .inl rfl
    · rename_i hcs
      rw [← hcs] at h
      split at h
      · rename_i t spelling hscan
        split at h
        · rename_i next hfeed
          have hdelivered : Delivered ⟨t, spelling, here.advance (cs.takeWhile isIgnored)⟩ := ⟨_, _, hscan⟩
          have hpath' := (Stack.feed_eq_ok hpath hdelivered.ne_finish hfeed).1
          obtain hlast | hreads := ih hpath' h
          · exact .inr (hlast ▸ hblanks)
          obtain ⟨rest, hrest⟩ := Lexer.scan?_begins hscan
          rw [← hrest, List.drop_left] at hreads
          exact .inr (.token hpath hrest.symm hscan hfeed hreads)
        · cases h
          cases hp
          exact .inr hblanks
      · split at h
        all_goals
          cases h
          cases hp
          exact .inr hblanks

/-- A text that cannot be parsed is viable up to the place of the problem, which lies in the text or at its end. -/
theorem syntax_error_position [CharNames] {source : String} {problem : SyntaxProblem} {p : Text.Position}
    (h : parse source = .error problem) (hp : problem.position? = some p) :
    1 ≤ p.line ∧ 1 ≤ p.column ∧
      (∃ line, (Text.lines source.toList)[p.line - 1]? = some line ∧ p.column ≤ line.length + 1) ∧
      Viable (Text.upTo source.toList p.line p.column) := by
  have hderive : deriveText source.toList = .error problem := by
    unfold parse at h
    split at h
    · cases h
      assumption
    · -- problems of literals have no place
      obtain ⟨other, -, rfl⟩ := Results.mapError_eq_error.mp h
      cases hp
  obtain ⟨before, after, hsource, rfl, hviable⟩ : ∃ before after, source.toList = before ++ after ∧
      p = Text.Position.start.advance before ∧ Viable before := by
    obtain rfl | ⟨lead, lexemes, rest, entered, hsource, hlead, hreading, rfl⟩ := parseFrom_eq_error .empty hderive hp
    · exact ⟨[], source.toList, rfl, rfl, @Reading.viable source.toList [] [] [] .done blank_nil⟩
    · exact ⟨lead ++ Lexeme.text lexemes, rest, by simp [hsource], rfl, hreading.viable hlead⟩
  obtain ⟨hline, hcolumn, hplace, hbefore⟩ := Text.place_of_beginning before after
  rw [hsource, hbefore]
  exact ⟨hline, hcolumn, hplace, hviable⟩

/-- A sign on the second line that is none. -/
def unexpected : String := "[a +\n  #"

theorem unexpected_place : parse unexpected = .error (.character '#' ⟨7, 2, 3⟩) ∧
    Text.upTo unexpected.toList 2 3 = "[a +\n  ".toList ∧ Viable (Text.upTo unexpected.toList 2 3) := by
  have hparse : parse unexpected = .error (.character '#' ⟨7, 2, 3⟩) := by cbv
  obtain ⟨-, -, -, hviable⟩ := syntax_error_position hparse rfl
  exact ⟨hparse, by decide, hviable⟩

end Expr

end RoutineFlow
