import RoutineFlow.Proofs.Keyed
import RoutineFlow.Proofs.Literals
import RoutineFlow.Proofs.Rescanning
import RoutineFlow.Proofs.Validation

/-!
What is written as a document is read as the same document, whatever stands between its members. Keys that are no texts
are read as the texts that they were written by.
-/

namespace RoutineFlow

/-- The text that is written for a key. -/
def Key.spelling : Key → List Char
  | .null => Json.nullWord
  | .bool b => Json.boolWord b
  | .num n => Value.numberLiteral n
  | .text s => s.toList

namespace Value

@[elab_as_elim]
theorem induct {P : Value → Prop} (null : P .null) (bool : ∀ b, P (.bool b)) (num : ∀ n, P (.num n))
    (str : ∀ s, P (.str s)) (list : ∀ items, (∀ v ∈ items, P v) → P (.list items))
    (map : ∀ entries : Environment, (∀ entry ∈ entries, P entry.2) → P (.map entries)) (v : Value) : P v :=
  @Value.rec P (fun items => ∀ v ∈ items, P v) (fun entries => ∀ entry ∈ entries, P entry.2) (fun entry => P entry.2)
    null bool num str list map (by simp) (fun _ _ hfirst hrest => List.forall_mem_cons.mpr ⟨hfirst, hrest⟩) (by simp)
    (fun _ _ hfirst hrest => List.forall_mem_cons.mpr ⟨hfirst, hrest⟩) (fun _ _ h => h) v

mutual

/-- What is read of a value that was written: keys are texts, and of entries whose keys are written by one text the last
one counts. -/
def asRead : Value → Value
  | .list items => .list (asReadItems items)
  | .map entries => .map (Mapping.ofEntries (asReadEntries entries))
  | v => v

def asReadItems : List Value → List Value
  | [] => []
  | v :: rest => asRead v :: asReadItems rest

def asReadEntries : List (Key × Value) → List (Key × Value)
  | [] => []
  | (key, v) :: rest => (.text (String.ofList key.spelling), asRead v) :: asReadEntries rest

end

theorem asReadItems_eq_map (items : List Value) : asReadItems items = items.map asRead := by
  induction items with
  | nil => rfl
  | cons v items ih => rw [asReadItems, ih, List.map_cons]

theorem asReadEntries_eq (entries : List (Key × Value)) : asReadEntries entries =
    Environment.ofNamed (entries.map fun (key, v) => (String.ofList key.spelling, asRead v)) := by
  induction entries with
  | nil => rfl
  | cons entry entries ih =>
    rw [asReadEntries, ih]
    rfl

theorem keyed_asRead (v : Value) : v.asRead.Keyed := by
  induction v using induct with
  | null => exact .null
  | bool b => exact .bool b
  | num n => exact .num n
  | str s => exact .str s
  | list items ih =>
    rw [asRead, asReadItems_eq_map, keyed_list]
    exact List.forall_mem_map.mpr ih
  | map entries ih =>
    rw [asRead, asReadEntries_eq]
    exact Json.keyed_ofEntries (List.forall_mem_map.mpr ih)

theorem Keyed.asRead_eq {v : Value} (h : v.Keyed) : v.asRead = v := by
  induction h with
  | list _ ih =>
    rw [asRead, asReadItems_eq_map, List.map_congr_left ih, List.map_id']
  | @map fields hdistinct _ ih =>
    have hfields : (Environment.ofNamed fields).map (fun (key, v) => (String.ofList key.spelling, asRead v)) = fields := by
      have hentry : ∀ entry ∈ fields, (String.ofList (Key.text entry.1).spelling, asRead entry.2) = entry := by
        intro entry hentry
        rw [ih entry hentry, Key.spelling, String.ofList_toList]
      rw [Environment.ofNamed, List.map_map]
      exact (List.map_congr_left hentry).trans (List.map_id' _)
    rw [asRead, asReadEntries_eq, hfields, Json.ofEntries_ofNamed hdistinct]
  | _ => rfl

/-- A value is read as it was exactly when texts are all its keys, each once. -/
theorem asRead_eq_iff {v : Value} : v.asRead = v ↔ v.Keyed :=
  ⟨fun h => h ▸ v.keyed_asRead, Keyed.asRead_eq⟩

theorem numbers_of_mem_entries {entries : Environment} {entry : Key × Value} {n : Number} (hentry : entry ∈ entries)
    (hn : n ∈ entry.2.numbers) : n ∈ (Value.map entries).numbers := by
  rw [numbers]
  induction entries with
  | nil => cases hentry
  | cons other entries ih =>
    rw [entriesNumbers, List.mem_append]
    rcases List.mem_cons.mp hentry with rfl | hentry
    · exact .inl hn
    · exact .inr (ih hentry)

end Value

namespace Json

open Numeral

variable {l : Layout}

theorem keyWord_eq {key : Key} {cs : List Char} (hfinite : l.finiteOnly = true) (h : keyWord l key = .ok cs) :
    cs = key.spelling := by
  cases key with
  | num n =>
    cases n with
    | int i =>
      simp only [keyWord, writeNumber, Number.intText] at h
      split at h
      · cases h
      · rw [← Except.ok.inj h]
        by_cases hi : i < 0 <;> simp [Key.spelling, Value.numberLiteral, hi]
    | float x =>
      simp only [keyWord, writeNumber] at h
      split at h
      · exact (Except.ok.inj h).symm
      · simp [writeSpecial, hfinite] at h
    | unknown mark => simp [keyWord, writeNumber, writeSpecial, hfinite] at h
  | _ => exact (Except.ok.inj h).symm

/-- Where a value starts, nothing is skipped, and no list ends. -/
def Opens (cs : List Char) : Prop :=
  ∃ c ∈ cs.head?, isGap c = false ∧ c ≠ ']' ∧ c ≠ Char.ofNat 0xFEFF

theorem Opens.cons {c : Char} (h : isGap c = false ∧ c ≠ ']' ∧ c ≠ Char.ofNat 0xFEFF) (cs : List Char) :
    Opens (c :: cs) :=
  ⟨c, rfl, h⟩

theorem Opens.append {cs : List Char} (h : Opens cs) (rest : List Char) : Opens (cs ++ rest) := by
  obtain ⟨c, hc, h⟩ := h
  exact ⟨c, List.mem_head?_append_of_mem_head? hc, h⟩

theorem Opens.skipGap {cs : List Char} (h : Opens cs) : skipGap cs = cs := by
  obtain ⟨c, hc, hgap, -⟩ := h
  cases cs with
  | nil => cases hc
  | cons d cs =>
    cases hc
    simp [Json.skipGap, hgap]

def IsGap (gap : List Char) : Prop :=
  ∀ c ∈ gap, isGap c = true

theorem IsGap.skipGap {gap : List Char} (h : IsGap gap) (cs : List Char) : skipGap (gap ++ cs) = skipGap cs :=
  List.dropWhile_append_of_pos h

theorem IsGap.ended {gap rest : List Char} (h : IsGap gap) (hrest : Ended rest) : Ended (gap ++ rest) := by
  cases gap with
  | nil => exact hrest
  | cons c gap =>
    rintro _ ⟨⟩
    have hc := h c List.mem_cons_self
    simp only [isGap, Bool.or_eq_true, beq_iff_eq] at hc
    rcases hc with ((rfl | rfl) | rfl) | rfl <;> decide

theorem ended_cons {c : Char} (h : c ∈ [',', ']', '}']) (rest : List Char) : Ended (c :: rest) := by
  rintro _ ⟨⟩
  simp only [List.mem_cons, List.not_mem_nil, or_false] at h
  rcases h with rfl | rfl | rfl <;> decide

theorem isGap_margin (l : Layout) (depth : Nat) : IsGap (l.margin depth) := by
  intro c hc
  unfold Layout.margin at hc
  split at hc
  · cases hc
  · rcases List.mem_cons.mp hc with rfl | hc
    · rfl
    · rw [List.eq_of_mem_replicate hc]
      rfl

theorem comma_eq (l : Layout) : ∃ gap, IsGap gap ∧ l.comma = ',' :: gap := by
  unfold Layout.comma
  split
  · exact ⟨[' '], by simp [IsGap, isGap], rfl⟩
  · exact ⟨[], nofun, rfl⟩

theorem colon_eq (l : Layout) : ∃ gap, IsGap gap ∧ l.colon = ':' :: gap := by
  unfold Layout.colon
  split
  · exact ⟨[' '], by simp [IsGap, isGap], rfl⟩
  · exact ⟨[], nofun, rfl⟩

open Text (join)
open Results (bind_eq_ok)

/-- However deep a value stands, what is written for it is read as the same value in front of whatever may follow. -/
def Rereads (l : Layout) (v : Value) : Prop :=
  ∀ depth cs, write l depth v = .ok cs → Opens cs ∧ ∀ rest, Ended rest → ∀ fuel, 2 * cs.length ≤ fuel →
    readValue fuel (cs ++ rest) = .ok (v.asRead, rest)

theorem rereads_word {v : Value} {c : Char} {word : List Char} (hwrite : ∀ depth, write l depth v = .ok (c :: word))
    (hc : isGap c = false ∧ c ≠ ']' ∧ c ≠ Char.ofNat 0xFEFF)
    (hread : ∀ fuel rest, readValue (fuel + 1) (c :: (word ++ rest)) = .ok (v.asRead, rest)) : Rereads l v := by
  intro depth cs h
  obtain rfl := Except.ok.inj ((hwrite depth).symm.trans h)
  refine ⟨.cons hc word, fun rest _ fuel hfuel => ?_⟩
  obtain ⟨fuel, rfl⟩ := Nat.exists_eq_add_of_lt (Nat.lt_of_lt_of_le (by simp) hfuel : 0 < fuel)
  rw [Nat.zero_add]
  exact hread fuel rest

theorem readValue_text (fuel : Nat) (cs rest : List Char) :
    readValue (fuel + 1) (writeText false cs ++ rest) = .ok (.str (String.ofList cs), rest) := by
  have hread := readText_written ('"' :: (cs.flatMap (escapeChar false) ++ '"' :: rest)) cs rest
  have htext : writeText false cs ++ rest = '"' :: (cs.flatMap (escapeChar false) ++ '"' :: rest) := by
    simp [writeText]
  rw [htext, readValue, hread]
  rfl

theorem readWord?_eq_none (negative : Bool) {c : Char} (hc : c.isDigit = true) (cs : List Char) :
    readWord? ((if negative then ['-'] else []) ++ c :: cs) = none := by
  have hne : ∀ d : Char, d.isDigit = false → c ≠ d := fun d hd => ne_of_isDigit hc hd
  cases negative with
  | true =>
    have hI := hne 'I' rfl
    simp [readWord?, hI]
  | false =>
    have hn := hne 'n' rfl
    have ht := hne 't' rfl
    have hf := hne 'f' rfl
    have hN := hne 'N' rfl
    have hI := hne 'I' rfl
    have hminus := hne '-' rfl
    simp [readWord?, hn, ht, hf, hN, hI, hminus]

theorem readValue_number {negative : Bool} {c : Char} (hc : c.isDigit = true) (fuel : Nat) (cs : List Char) :
    readValue (fuel + 1) ((if negative then ['-'] else []) ++ c :: cs) =
      readNumber ((if negative then ['-'] else []) ++ c :: cs) := by
  have hword := readWord?_eq_none negative hc cs
  have hquote : c ≠ '"' := ne_of_isDigit hc rfl
  have hbrace : c ≠ '{' := ne_of_isDigit hc rfl
  have hbracket : c ≠ '[' := ne_of_isDigit hc rfl
  cases negative with
  | true =>
    simp only [↓reduceIte, List.cons_append, List.nil_append] at hword ⊢
    simp [readValue, hword]
  | false =>
    simp only [Bool.false_eq_true, ↓reduceIte, List.nil_append] at hword ⊢
    simp [readValue, hword, hquote, hbrace, hbracket]

theorem rereads_number (hfinite : l.finiteOnly = true) {n : Number}
    (hprint : ∀ x, n = .float x → double? (Binary.text x) = some x) : Rereads l (.num n) := by
  intro depth cs h
  obtain ⟨negative, w, rfl, hread⟩ := readNumber_written hfinite hprint h
  obtain ⟨c, hc, hdigit⟩ := w.head_isDigit
  obtain ⟨d, text, htext⟩ : ∃ d text, w.text = d :: text := by
    cases hw : w.text with
    | nil =>
      rw [hw] at hc
      cases hc
    | cons d text => exact ⟨d, text, rfl⟩
  rw [htext] at hc
  cases hc
  have hrange := toNat_of_isDigit hdigit
  have hgap : isGap c = false := by
    have hne : ∀ d : Char, d.isDigit = false → c ≠ d := fun d hd => ne_of_isDigit hdigit hd
    simp [isGap, hne ' ' rfl, hne '\t' rfl, hne '\n' rfl, hne '\r' rfl]
  have hopens : Opens ((if negative then ['-'] else []) ++ w.text) := by
    rw [htext]
    cases negative with
    | true => exact .cons (by decide) _
    | false => exact .cons ⟨hgap, ne_of_isDigit hdigit rfl, ne_of_isDigit hdigit rfl⟩ _
  refine ⟨hopens, fun rest hrest fuel hfuel => ?_⟩
  obtain ⟨fuel, rfl⟩ : ∃ before, fuel = before + 1 := ⟨fuel - 1, by
    rw [htext] at hfuel
    simp at hfuel
    omega⟩
  have hvalue := hread rest hrest
  rw [htext, List.append_assoc, List.cons_append] at hvalue ⊢
  rw [readValue_number hdigit, hvalue]
  rfl

theorem rereads_text (hascii : l.ascii = false) (s : String) : Rereads l (.str s) := by
  intro depth cs h
  rw [write, hascii] at h
  obtain rfl := Except.ok.inj h
  refine ⟨.cons (by decide) _, fun rest _ fuel hfuel => ?_⟩
  obtain ⟨fuel, rfl⟩ : ∃ before, fuel = before + 1 := ⟨fuel - 1, by
    simp [writeText] at hfuel
    omega⟩
  rw [readValue_text, String.ofList_toList]
  rfl

theorem writeItems_eq_ok {depth : Nat} {v : Value} {items : List Value} {members : List (List Char)}
    (h : writeItems l depth (v :: items) = .ok members) : ∃ member others, members = member :: others ∧
      write l depth v = .ok member ∧ writeItems l depth items = .ok others := by
  rw [writeItems] at h
  obtain ⟨member, hmember, h⟩ := bind_eq_ok.mp h
  obtain ⟨others, hothers, h⟩ := bind_eq_ok.mp h
  exact ⟨member, others, (Except.ok.inj h).symm, hmember, hothers⟩

theorem writeEntries_eq_ok {depth : Nat} {key : Key} {v : Value} {entries : List (Key × Value)}
    {members : List (List Char)} (h : writeEntries l depth ((key, v) :: entries) = .ok members) :
    ∃ word member others, members = (writeText l.ascii word ++ l.colon ++ member) :: others ∧
      keyWord l key = .ok word ∧ write l depth v = .ok member ∧ writeEntries l depth entries = .ok others := by
  rw [writeEntries] at h
  obtain ⟨word, hword, h⟩ := bind_eq_ok.mp h
  obtain ⟨member, hmember, h⟩ := bind_eq_ok.mp h
  obtain ⟨others, hothers, h⟩ := bind_eq_ok.mp h
  exact ⟨word, member, others, (Except.ok.inj h).symm, hword, hmember, hothers⟩

section Members

variable {gap margin : List Char} (hgap : IsGap gap) (hmargin : IsGap margin)

include hgap hmargin

/-- Each item takes one unit of fuel beside its own, and the sign in front of the next one pays for it. -/
theorem readItems_written {items : List Value} (hne : items ≠ []) (hall : ∀ v ∈ items, Rereads l v) {depth : Nat}
    {members : List (List Char)} (h : writeItems l depth items = .ok members) (rest : List Char) {fuel : Nat}
    (hfuel : 2 * (join (',' :: gap) members).length < fuel) : Opens (join (',' :: gap) members) ∧
      readItems fuel (join (',' :: gap) members ++ (margin ++ ']' :: rest)) = .ok (Value.asReadItems items, rest) := by
  induction items generalizing members fuel with
  | nil => exact absurd rfl hne
  | cons v items ih =>
    obtain ⟨hv, hrest⟩ := List.forall_mem_cons.mp hall
    obtain ⟨member, others, rfl, hmember, hothers⟩ := writeItems_eq_ok h
    obtain ⟨hopens, hread⟩ := hv depth member hmember
    obtain ⟨fuel, rfl⟩ : ∃ before, fuel = before + 1 := ⟨fuel - 1, by omega⟩
    cases items with
    | nil =>
      obtain rfl := Except.ok.inj hothers
      have hend : Ended (margin ++ ']' :: rest) := hmargin.ended (ended_cons (by decide) rest)
      have hskip : skipGap (margin ++ ']' :: rest) = ']' :: rest := hmargin.skipGap _
      refine ⟨hopens, ?_⟩
      rw [join] at hfuel ⊢
      simp only [readItems, hread _ hend fuel (by omega), hskip]
      rfl
    | cons w items =>
      obtain ⟨next, others, rfl, -, -⟩ := writeItems_eq_ok hothers
      have hjoin : join (',' :: gap) (member :: next :: others) =
          member ++ (',' :: (gap ++ join (',' :: gap) (next :: others))) := by
        simp [join]
      rw [hjoin] at hfuel ⊢
      simp only [List.length_append, List.length_cons] at hfuel
      obtain ⟨hopens', hread'⟩ := ih (by simp) hrest hothers (by omega : _ < fuel)
      refine ⟨hopens.append _, ?_⟩
      generalize join (',' :: gap) (next :: others) = text at hfuel hopens' hread' ⊢
      have hnext : Ended (',' :: (gap ++ (text ++ (margin ++ ']' :: rest)))) := ended_cons (by decide) _
      have hskip : skipGap (',' :: (gap ++ (text ++ (margin ++ ']' :: rest)))) =
          ',' :: (gap ++ (text ++ (margin ++ ']' :: rest))) := rfl
      have hskip' : skipGap (gap ++ (text ++ (margin ++ ']' :: rest))) = text ++ (margin ++ ']' :: rest) := by
        rw [hgap.skipGap, (hopens'.append _).skipGap]
      simp only [List.append_assoc, List.cons_append, readItems, hread _ hnext fuel (by omega), hskip, hskip', hread']
      rfl

omit hmargin in
theorem readKey_written (word : List Char) {cs : List Char} (h : Opens cs) :
    readKey (writeText false word ++ (':' :: (gap ++ cs))) = .ok (String.ofList word, cs) := by
  have hread := readText_written ('"' :: (word.flatMap (escapeChar false) ++ '"' :: ':' :: (gap ++ cs))) word
    (':' :: (gap ++ cs))
  have htext : writeText false word ++ (':' :: (gap ++ cs)) =
      '"' :: (word.flatMap (escapeChar false) ++ '"' :: ':' :: (gap ++ cs)) := by
    simp [writeText]
  have hcolon : skipGap (':' :: (gap ++ cs)) = ':' :: (gap ++ cs) := rfl
  have hskip : skipGap (gap ++ cs) = cs := by
    rw [hgap.skipGap, h.skipGap]
  simp only [htext, readKey, hread, hcolon, hskip]

theorem readEntries_written (hascii : l.ascii = false) (hfinite : l.finiteOnly = true) {entries : List (Key × Value)}
    (hne : entries ≠ []) (hall : ∀ entry ∈ entries, Rereads l entry.2) {depth : Nat} {members : List (List Char)}
    (h : writeEntries l depth entries = .ok members) (rest : List Char) {fuel : Nat}
    (hfuel : 2 * (join (',' :: gap) members).length < fuel) : (∃ cs, join (',' :: gap) members = '"' :: cs) ∧
      readEntries fuel (join (',' :: gap) members ++ (margin ++ '}' :: rest)) =
        .ok (Value.asReadEntries entries, rest) := by
  induction entries generalizing members fuel with
  | nil => exact absurd rfl hne
  | cons entry entries ih =>
    obtain ⟨key, v⟩ := entry
    obtain ⟨hv, hrest⟩ := List.forall_mem_cons.mp hall
    obtain ⟨word, member, others, rfl, hword, hmember, hothers⟩ := writeEntries_eq_ok h
    obtain rfl := keyWord_eq hfinite hword
    obtain ⟨hopens, hread⟩ := hv depth member hmember
    obtain ⟨colonGap, hcolonGap, hcolon⟩ := colon_eq l
    obtain ⟨fuel, rfl⟩ : ∃ before, fuel = before + 1 := ⟨fuel - 1, by omega⟩
    rw [hascii, hcolon] at hfuel ⊢
    cases entries with
    | nil =>
      obtain rfl := Except.ok.inj hothers
      have hend : Ended (margin ++ '}' :: rest) := hmargin.ended (ended_cons (by decide) rest)
      have hskip : skipGap (margin ++ '}' :: rest) = '}' :: rest := hmargin.skipGap _
      rw [join] at hfuel ⊢
      simp only [List.length_append, List.length_cons] at hfuel
      have hkey := readKey_written hcolonGap key.spelling (hopens.append (margin ++ '}' :: rest))
      refine ⟨⟨_, rfl⟩, ?_⟩
      simp only [List.append_assoc, List.cons_append, readEntries, hkey, hread _ hend fuel (by omega), hskip]
      rfl
    | cons other entries =>
      obtain ⟨next, others, rfl⟩ : ∃ next rest, others = next :: rest := by
        obtain ⟨word, text, rest, hcons, -⟩ := writeEntries_eq_ok hothers
        exact ⟨_, rest, hcons⟩
      have hjoin : join (',' :: gap) ((writeText false key.spelling ++ ':' :: colonGap ++ member) :: next :: others) =
          writeText false key.spelling ++ (':' :: (colonGap ++ (member ++ (',' :: (gap ++
            join (',' :: gap) (next :: others)))))) := by
        simp [join]
      rw [hjoin] at hfuel ⊢
      simp only [List.length_append, List.length_cons] at hfuel
      obtain ⟨⟨cs, hcs⟩, hread'⟩ := ih (by simp) hrest hothers (by omega : _ < fuel)
      refine ⟨⟨_, rfl⟩, ?_⟩
      have hopens' : Opens (join (',' :: gap) (next :: others)) := by
        rw [hcs]
        exact .cons (by decide) cs
      generalize join (',' :: gap) (next :: others) = text at hfuel hopens' hread' ⊢
      have hnext : Ended (',' :: (gap ++ (text ++ (margin ++ '}' :: rest)))) := ended_cons (by decide) _
      have hskip : skipGap (',' :: (gap ++ (text ++ (margin ++ '}' :: rest)))) =
          ',' :: (gap ++ (text ++ (margin ++ '}' :: rest))) := rfl
      have hskip' : skipGap (gap ++ (text ++ (margin ++ '}' :: rest))) = text ++ (margin ++ '}' :: rest) := by
        rw [hgap.skipGap, (hopens'.append _).skipGap]
      have hkey := readKey_written hcolonGap key.spelling
        (hopens.append (',' :: (gap ++ (text ++ (margin ++ '}' :: rest)))))
      simp only [List.append_assoc, List.cons_append, readEntries, hkey, hread _ hnext fuel (by omega), hskip, hskip',
        hread']
      rfl

end Members

theorem enclose_cons (l : Layout) (first last : Char) (depth : Nat) (member : List Char) (others : List (List Char)) :
    ∃ gap before margin, IsGap gap ∧ IsGap before ∧ IsGap margin ∧
      l.enclose first last depth (member :: others) =
        first :: (before ++ (join (',' :: gap) (member :: others) ++ (margin ++ [last]))) := by
  obtain ⟨gap, hgap, hcomma⟩ := comma_eq l
  have hbefore := isGap_margin l (depth + 1)
  refine ⟨gap ++ l.margin (depth + 1), l.margin (depth + 1), l.margin depth, ?_, hbefore, isGap_margin l depth, ?_⟩
  · exact fun c hc => (List.mem_append.mp hc).elim (hgap c) (hbefore c)
  · simp [Layout.enclose, hcomma]

theorem rereads_list {items : List Value} (hall : ∀ v ∈ items, Rereads l v) : Rereads l (.list items) := by
  intro depth cs h
  rw [write] at h
  obtain ⟨members, hmembers, h⟩ := bind_eq_ok.mp h
  obtain rfl := Except.ok.inj h
  cases items with
  | nil =>
    obtain rfl := Except.ok.inj hmembers
    refine ⟨.cons (by decide) _, fun rest _ fuel hfuel => ?_⟩
    obtain ⟨fuel, rfl⟩ : ∃ before, fuel = before + 1 := ⟨fuel - 1, by
      simp [Layout.enclose] at hfuel
      omega⟩
    rfl
  | cons v items =>
    obtain ⟨member, others, rfl, -, -⟩ := writeItems_eq_ok hmembers
    obtain ⟨gap, before, margin, hgap, hbefore, hmargin, hwritten⟩ := enclose_cons l '[' ']' depth member others
    rw [hwritten]
    refine ⟨.cons (by decide) _, fun rest _ fuel hfuel => ?_⟩
    simp only [List.length_append, List.length_cons, List.length_nil] at hfuel
    obtain ⟨fuel, rfl⟩ : ∃ before, fuel = before + 1 := ⟨fuel - 1, by omega⟩
    obtain ⟨hopens, hread⟩ := readItems_written hgap hmargin (by simp) hall hmembers rest (by omega : _ < fuel)
    generalize join (',' :: gap) (member :: others) = text at hopens hread
    have hskip : skipGap (before ++ (text ++ (margin ++ ']' :: rest))) = text ++ (margin ++ ']' :: rest) := by
      rw [hbefore.skipGap, (hopens.append _).skipGap]
    obtain ⟨c, hc, -, hbracket, -⟩ := hopens
    cases text with
    | nil => cases hc
    | cons d text =>
      cases hc
      simp only [List.cons_append, List.append_assoc, List.nil_append] at hskip hread ⊢
      simp [readValue, hskip, hbracket, hread, Except.map, Value.asRead]

theorem rereads_map (hascii : l.ascii = false) (hfinite : l.finiteOnly = true) {entries : Environment}
    (hall : ∀ entry ∈ entries, Rereads l entry.2) : Rereads l (.map entries) := by
  intro depth cs h
  rw [write] at h
  obtain ⟨members, hmembers, h⟩ := bind_eq_ok.mp h
  obtain rfl := Except.ok.inj h
  cases entries with
  | nil =>
    obtain rfl := Except.ok.inj hmembers
    refine ⟨.cons (by decide) _, fun rest _ fuel hfuel => ?_⟩
    obtain ⟨fuel, rfl⟩ : ∃ before, fuel = before + 1 := ⟨fuel - 1, by
      simp [Layout.enclose] at hfuel
      omega⟩
    rfl
  | cons entry entries =>
    obtain ⟨member, others, rfl⟩ : ∃ member others, members = member :: others := by
      obtain ⟨word, text, rest, hcons, -⟩ := writeEntries_eq_ok hmembers
      exact ⟨_, rest, hcons⟩
    obtain ⟨gap, before, margin, hgap, hbefore, hmargin, hwritten⟩ := enclose_cons l '{' '}' depth member others
    rw [hwritten]
    refine ⟨.cons (by decide) _, fun rest _ fuel hfuel => ?_⟩
    simp only [List.length_append, List.length_cons, List.length_nil] at hfuel
    obtain ⟨fuel, rfl⟩ : ∃ before, fuel = before + 1 := ⟨fuel - 1, by omega⟩
    obtain ⟨⟨text, htext⟩, hread⟩ :=
      readEntries_written hgap hmargin hascii hfinite (by simp) hall hmembers rest (by omega : _ < fuel)
    rw [htext] at hread ⊢
    have hopens : Opens ('"' :: text) := .cons (by decide) text
    have hskip : skipGap (before ++ ('"' :: text ++ (margin ++ '}' :: rest))) =
        '"' :: text ++ (margin ++ '}' :: rest) := by
      rw [hbefore.skipGap, (hopens.append _).skipGap]
    simp only [List.cons_append, List.append_assoc, List.nil_append] at hskip hread ⊢
    simp [readValue, hskip, hread, Except.map, Value.asRead]

theorem rereads (hascii : l.ascii = false) (hfinite : l.finiteOnly = true) {v : Value}
    (hprint : ∀ x, .float x ∈ v.numbers → double? (Binary.text x) = some x) : Rereads l v := by
  induction v using Value.induct with
  | null => exact rereads_word (fun _ => rfl) (by decide) fun _ _ => rfl
  | bool b =>
    cases b with
    | true => exact rereads_word (fun _ => rfl) (by decide) fun _ _ => rfl
    | false => exact rereads_word (fun _ => rfl) (by decide) fun _ _ => rfl
  | num n =>
    apply rereads_number hfinite
    rintro x rfl
    exact hprint x (by simp [Value.numbers])
  | str s => exact rereads_text hascii s
  | list items ih =>
    exact rereads_list fun v hv => ih v hv fun x hx => hprint x (Value.numbers_of_mem_items hv hx)
  | map entries ih =>
    exact rereads_map hascii hfinite fun entry hentry =>
      ih entry hentry fun x hx => hprint x (Value.numbers_of_mem_entries hentry hx)

theorem read_render (hascii : l.ascii = false) (hfinite : l.finiteOnly = true) {v : Value}
    (hprint : ∀ x, .float x ∈ v.numbers → double? (Binary.text x) = some x) {text : String}
    (h : render l v = .ok text) : read text = .ok v.asRead := by
  unfold render at h
  cases hwrite : write l 0 v with
  | error cause =>
    rw [hwrite] at h
    cases h
  | ok cs =>
    rw [hwrite] at h
    obtain rfl := Except.ok.inj h
    obtain ⟨hopens, hread⟩ := rereads hascii hfinite hprint 0 cs hwrite
    have hvalue := hread [] nofun (2 * cs.length + 2) (by omega)
    rw [List.append_nil] at hvalue
    have hmark : cs.head? ≠ some (Char.ofNat 0xFEFF) := by
      obtain ⟨c, hc, -, -, hne⟩ := hopens
      intro hhead
      rw [hhead] at hc
      exact hne (Option.some.inj hc).symm
    have hdocument : readDocument cs = .ok v.asRead := by
      simp only [readDocument, hmark, ↓reduceIte, hopens.skipGap, hvalue]
      rfl
    simp only [read, String.toList_ofList, hdocument]

end Json

end RoutineFlow
