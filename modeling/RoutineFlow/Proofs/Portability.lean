import RoutineFlow.Proofs.Respacing
import RoutineFlow.Proofs.Words

/-!
The lexemes of an expression are the same wherever it may stand in a longer one, in front of a closing sign.
-/

namespace RoutineFlow.Expr

open Automaton (top Shifts Ends Opens closers concluded accepting)
open Lexeme (place)
open Lexer (IsBreak)

namespace Automaton

theorem opens_accepted_all : (List.range states.size).all (fun s => !decide (Opens s) ||
    (accepted 0).all (fun t => (accepted s).contains t) &&
      (accepted s).all fun t => (accepted 0).contains t || [.closeParen, .closeBracket].contains t) = true := by
  decide

theorem accepted_of_opens {s : Nat} (hopens : Opens s) (t : Terminal) :
    (accepted s).contains t = (accepted 0).contains t ∨ t = .closeParen ∨ t = .closeBracket := by
  obtain ⟨g, hg⟩ := Option.isSome_iff_exists.mp hopens
  have hall := List.all_eq_true.mp opens_accepted_all s (List.mem_range.mpr (lt_of_step (X := .phrase _) hg))
  simp only [hopens, decide_true, Bool.not_true, Bool.false_or, Bool.and_eq_true, List.all_eq_true,
    List.contains_iff_mem, Bool.or_eq_true, List.mem_cons, List.not_mem_nil, or_false] at hall
  obtain ⟨hstart, hmore⟩ := hall
  by_cases h : t ∈ accepted s
  · obtain hmem | hclosing := hmore t h
    · exact .inl (by simp [h, hmem])
    · exact .inr hclosing
  · have hnot : t ∉ accepted 0 := fun hmem => h (hstart t hmem)
    exact .inl (by simp [h, hnot])

end Automaton

namespace Lexer

variable {accepted accepted' : List Terminal} {cs : List Char} {read : Terminal × List Char}

theorem findSome?_congr {α β : Type} {f g : α → Option β} {as : List α} (h : ∀ a ∈ as, f a = g a) :
    as.findSome? f = as.findSome? g := by
  induction as with
  | nil => rfl
  | cons a as ih =>
    obtain ⟨ha, has⟩ := List.forall_mem_cons.mp h
    rw [List.findSome?_cons, List.findSome?_cons, ha, ih has]

/-- Signs that are looked for in vain make no difference. -/
theorem scan?_congr (h : ∀ t, accepted'.contains t = accepted.contains t ∨
    t ∈ Terminal.punctuation ∧ sign? t cs = none) : scan? accepted' cs = scan? accepted cs := by
  have hother {t : Terminal} (ht : t ∉ Terminal.punctuation) : accepted'.contains t = accepted.contains t :=
    (h t).resolve_right fun h => ht h.1
  have hkeywords : ∀ t ∈ Terminal.keywords, accepted'.contains t = accepted.contains t := by
    have hall : ∀ t ∈ Terminal.keywords, t ∉ Terminal.punctuation := by decide
    exact fun t ht => hother (hall t ht)
  have hname (word : List Char) : nameTerminal accepted' word = nameTerminal accepted word := by
    unfold nameTerminal
    rw [List.find?_congr fun t ht => by rw [hkeywords t ht]]
  have hkeyword : keyword? accepted' cs = keyword? accepted cs :=
    findSome?_congr fun t ht => by rw [hkeywords t ht]
  have hpunctuation : punctuation? accepted' cs = punctuation? accepted cs := by
    refine findSome?_congr fun t _ => ?_
    obtain heq | ⟨-, hnone⟩ := h t
    · rw [heq]
    · simp [hnone]
  have hnumeral : accepted'.contains .numeral = accepted.contains .numeral := hother (by decide)
  have hnames : accepted'.contains .name = accepted.contains .name := hother (by decide)
  have htext : accepted'.contains .text = accepted.contains .text := hother (by decide)
  unfold scan?
  simp only [hnumeral, hnames, htext, hname, hkeyword, hpunctuation]

theorem scan?_closing {c : Char} (hc : c = ')' ∨ c = ']') (rest : List Char) :
    scan? (Automaton.accepted 0) (c :: rest) = none := by
  have hmark : IsMark c := by rcases hc with rfl | rfl <;> exact ⟨rfl, rfl, by decide, rfl⟩
  have hparen : Terminal.closeParen ∉ Automaton.accepted 0 := by decide
  have hbracket : Terminal.closeBracket ∉ Automaton.accepted 0 := by decide
  rw [scan?_eq_punctuation hmark (by rintro rfl; simp at hc)]
  rcases hc with rfl | rfl <;> simp [punctuation?, Terminal.punctuation, sign?, Terminal.signs, hparen, hbracket]

theorem scan?_of_opens {s : Nat} (hopens : Opens s) (h : scan? (Automaton.accepted 0) cs = some read) :
    scan? (Automaton.accepted s) cs = some read := by
  rw [← h]
  apply scan?_congr
  intro t
  refine (Automaton.accepted_of_opens hopens t).imp_right fun hclosing => ?_
  cases cs with
  | nil => rcases hclosing with rfl | rfl <;> exact ⟨by decide, rfl⟩
  | cons c rest =>
    -- with a closing sign, nothing would have been read at the start of a text
    have hc : ¬ (c = ')' ∨ c = ']') := by
      intro hc
      rw [scan?_closing hc rest] at h
      cases h
    rw [not_or] at hc
    rcases hclosing with rfl | rfl
    · exact ⟨by decide, by simp [sign?, Terminal.signs, Ne.symm hc.1]⟩
    · exact ⟨by decide, by simp [sign?, Terminal.signs, Ne.symm hc.2]⟩

end Lexer

namespace Reading

variable {following : List Char} {entered next last outer : List Nat} {l : Lexeme} {lexemes : List Lexeme}

theorem top_ne (h : Reading following entered lexemes last) (hconcluded : top entered ≠ concluded)
    (haccepting : top entered ≠ accepting) : top last ≠ concluded ∧ top last ≠ accepting := by
  induction h with
  | done => exact ⟨hconcluded, haccepting⟩
  | next _ _ _ hshifts _ ih => exact ih hshifts.top_ne.1 hshifts.top_ne.2

theorem within (h : Reading following entered lexemes last) (hopens : Opens (top outer)) :
    Reading following (entered ++ outer) lexemes (last ++ outer) := by
  induction h with
  | done => exact .done
  | @next entered next last l lexemes hgap hstart hscan hshifts _ ih =>
    have hdelivered : Delivered ⟨l.terminal, l.spelling, .start⟩ := ⟨_, _, hscan⟩
    refine .next hgap hstart ?_ (hshifts.append hdelivered.ne_finish hopens) ih
    -- only in front of the first lexeme is the state another one
    cases entered with
    | nil => exact Lexer.scan?_of_opens hopens hscan
    | cons s entered => exact hscan

theorem readable (hl : l.Readable (Lexeme.text lexemes ++ following)) (hshifts : Shifts l.terminal entered next)
    (h : Reading following next lexemes last) : Reading following entered (l :: lexemes) last :=
  .next hl.gap hl.start (hl.scan _ (Automaton.mem_accepted hl.ne_finish hshifts.action_ne_refuse)) hshifts h

end Reading

/-- Words that are names, or would be if they were no keywords. -/
def IsIdentifier (x : String) : Prop :=
  Lexer.name? x.toList = some x.toList

def IsKeyword (x : String) : Prop :=
  ∃ t : Terminal, t.keyword? = some x.toList

theorem Reading.identifier {x : String} {gap following : List Char} {entered next last : List Nat}
    {lexemes : List Lexeme} (hx : IsIdentifier x)
    (hkey : ∀ t ∈ Automaton.accepted (top entered), t.keyword? ≠ some x.toList)
    (hgap : ∀ c ∈ gap, Lexer.isIgnored c = true)
    (hfollowing : ∀ c ∈ (gap ++ (Lexeme.text lexemes ++ following)).head?, Lexer.isNamePart c = false)
    (hshifts : Shifts .name entered next) (h : Reading following next lexemes last) :
    Reading following entered (⟨.name, x.toList, gap⟩ :: lexemes) last := by
  have haccepted := Automaton.mem_accepted (by decide) hshifts.action_ne_refuse
  refine .next hgap ?_ ?_ hshifts h
  · obtain ⟨c, u, hword, hc⟩ := Lexer.name_head hx
    simpa [hword] using Lexer.not_isIgnored_of_isNameStart hc
  · rw [Lexer.scan?_of_name hx haccepted hfollowing, Lexer.nameTerminal_eq_name hkey]

/-- The lexemes lead to states that stand, for what may come behind an expression, for those after it. -/
def Fills (before : List Nat) (lexemes : List Lexeme) (after : List Nat) : Prop :=
  ∃ last, (∀ following, (∀ b ∈ following.head?, IsBreak b) → Reading following before lexemes last) ∧
    ∀ t ∈ closers, ∀ next, Shifts t after next → Shifts t last next

/-- What ends an expression in a longer one. -/
structure Lexeme.Closing (l : Lexeme) : Prop where
  closer : l.terminal ∈ closers
  sign : l.spelling ∈ l.terminal.signs
  breaks : ∀ b ∈ l.spelling.head?, IsBreak b
  blank : ∀ c ∈ l.gap, Lexer.isIgnored c = true

/-- The signs that end an expression, the colon apart. -/
def Lexer.closings : List (Terminal × Char) :=
  [(.closeParen, ')'), (.closeBracket, ']'), (.closeBrace, '}'), (.comma, ',')]

theorem Lexeme.Closing.of_mem {t : Terminal} {c : Char} {gap : List Char} (h : (t, c) ∈ Lexer.closings)
    (hgap : ∀ c ∈ gap, Lexer.isIgnored c = true) : Closing ⟨t, [c], gap⟩ := by
  have hall : ∀ entry ∈ Lexer.closings, entry.1 ∈ closers ∧ [entry.2] ∈ entry.1.signs ∧
      entry.2 ∈ [')', ']', '}', ','] := by decide
  obtain ⟨hcloser, hsign, hbreak⟩ := hall (t, c) h
  refine ⟨hcloser, hsign, ?_, hgap⟩
  rintro b ⟨⟩
  exact .inr hbreak

theorem Lexeme.Closing.readable {l : Lexeme} (h : l.Closing) (following : List Char) : l.Readable following := by
  have hall : ∀ t ∈ closers, t ∉ [.comparison, .bang, .dot] := by decide
  exact readable_plain h.sign (hall _ h.closer) h.blank following

theorem Fills.close {before after next last : List Nat} {l : Lexeme} {lexemes others : List Lexeme}
    {following : List Char} (h : Fills before lexemes after) (hl : l.Closing) (hshifts : Shifts l.terminal after next)
    (hothers : Reading following next others last) : Reading following before (lexemes ++ l :: others) last := by
  obtain ⟨settled, hreading, hsettled⟩ := h
  refine (hreading _ ?_).append (.readable (hl.readable _) (hsettled _ hl.closer _ hshifts) hothers)
  intro b hb
  obtain ⟨c, u, hspelling, -⟩ := Lexer.sign_head hl.sign
  apply hl.breaks
  rw [Lexeme.text_cons, hspelling] at hb
  rw [hspelling]
  exact hb

/-- Lexemes that spell an expression wherever one may stand. -/
structure Portable [CharNames] (lexemes : List Lexeme) (e : Expr) : Prop where
  spells : ∀ here, Spells .conditional (place here lexemes) e
  fills : ∀ outer target, Automaton.goto? (top outer) .conditional = some target → Fills outer lexemes (target :: outer)

theorem Spells.conditional_of_whole [CharNames] {tokens : List Token} {e : Expr} (h : Spells .whole tokens e) :
    Spells .conditional tokens e := by
  cases h with
  | pass htighter h =>
    cases htighter
    exact h

theorem exists_portable [CharNames] {source : String} {e : Expr} (h : parse source = .ok e) :
    ∃ lead lexemes, source.toList = lead ++ Lexeme.text lexemes ∧ (∀ c ∈ lead, Lexer.isIgnored c = true) ∧
      Portable lexemes e := by
  obtain ⟨lead, lexemes, last, hsource, hlead, hreading, hends, hspells⟩ := exists_reading h
  have hsame := hreading.respaced_self
  refine ⟨lead, lexemes, hsource, hlead, fun here => ?_, ?_⟩
  · exact (hspells.alike (Lexeme.Respaced.alike hsame _ here)).conditional_of_whole
  intro outer target hgoto
  have hopens : Opens (top outer) := Option.isSome_iff_exists.mpr ⟨target, hgoto⟩
  obtain ⟨hconcluded, haccepting⟩ := hreading.top_ne (by decide) (by decide)
  refine ⟨last ++ outer, ?_, fun t ht next hnext => .after (hends.settles hconcluded haccepting ht hgoto) hnext⟩
  intro following hfollowing
  refine (hreading.respaced hsame ?_).within hopens
  cases following with
  | nil => exact .refl []
  | cons b following => exact .of_break (hfollowing b rfl) _ _

namespace Phrase

def tighten? : Nat → Phrase → Option Phrase
  | 0, p => some p
  | n + 1, p => p.tighter?.bind (tighten? n)

end Phrase

theorem Spells.loosen [CharNames] {loose tight : Phrase} {tokens : List Token} {e : Expr} (h : Spells tight tokens e)
    (n : Nat) (htight : loose.tighten? n = some tight) : Spells loose tokens e := by
  induction n generalizing loose with
  | zero =>
    cases htight
    exact h
  | succ n ih =>
    obtain ⟨next, htighter, hnext⟩ := Option.bind_eq_some_iff.mp htight
    exact .pass htighter (ih hnext)

theorem blank_nil : ∀ c ∈ ([] : List Char), Lexer.isIgnored c = true := by simp

theorem blank_space : ∀ c ∈ [' '], Lexer.isIgnored c = true := by simp [Lexer.isIgnored]

theorem Reading.parse_at_start [CharNames] {source : String} {e : Expr} {lexemes : List Lexeme} {last : List Nat}
    (h : Reading [] [] lexemes last) (hsource : source.toList = Lexeme.text lexemes)
    (hspells : ∀ here, Spells .conditional (place here lexemes) e) : Expr.parse source = .ok e :=
  @Reading.parse _ source e [] lexemes last h hsource blank_nil ((hspells _).loosen 1 rfl)

theorem keyText_eq {token : Token} {x : String} (h : token.text = x.toList) : keyText token = x := by
  rw [keyText, h, String.ofList_toList]

end RoutineFlow.Expr
