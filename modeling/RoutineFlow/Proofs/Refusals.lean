import RoutineFlow.Json.Reader
import RoutineFlow.Proofs.FiniteDocuments
import RoutineFlow.Proofs.Rereading

/-!
Apart from faults of the text, documents are refused for numbers only: integers of too many digits, and when they are written
also doubles that are not finite.
-/

namespace RoutineFlow

theorem Value.over_of_forall {P : Number → Prop} (h : ∀ n, P n) (v : Value) : v.Over P := by
  have hkey (key : Key) : key.Over P := by
    cases key with
    | num n => exact h n
    | _ => trivial
  induction v using Value.induct with
  | null => exact .null
  | bool b => exact .bool b
  | num n => exact .num (h n)
  | str s => exact .str s
  | list items ih => exact .list ih
  | map entries ih => exact .map (fun entry _ => hkey entry.1) ih

namespace Json

section Reading

/-- Reading stops at a problem of the text, or at an integer of too many digits. -/
def Stop.OfText : Stop → Prop
  | .problem _ _ => True
  | Stop.cause c => ∃ digits, c = .unreadableInteger digits

theorem failsIn_fault {α : Type} (p : Problem) (rest : List Char) : FailsIn Stop.OfText (fault p rest : Reading α) :=
  .error trivial

theorem failsIn_readLowHalf (high : Nat) (cs : List Char) : FailsIn Stop.OfText (readLowHalf high cs) := by
  unfold readLowHalf
  split
  · split
    · split
      · exact .error trivial
      · exact .ok _
    · exact .ok _
  · exact .ok _

theorem failsIn_readUnit (cs : List Char) : FailsIn Stop.OfText (readUnit cs) := by
  unfold readUnit
  split
  · split
    · exact .error trivial
    · split
      · exact .error trivial
      · exact (failsIn_readLowHalf _ _).map
  · exact .error trivial

theorem failsIn_readEscape (start cs : List Char) : FailsIn Stop.OfText (readEscape start cs) := by
  unfold readEscape
  split
  · exact .error trivial
  · exact (failsIn_readUnit _).map
  · split
    · exact .ok _
    · exact .error trivial

theorem failsIn_readText (start : List Char) (skip : Nat) (cs : List Char) :
    FailsIn Stop.OfText (readText start skip cs) := by
  induction skip, cs using readText.induct start with
  | case1 skip => simpa only [readText] using failsIn_fault _ _
  | case2 skip c cs ih => simpa only [readText] using ih
  | case3 cs => simpa only [readText] using .ok _
  | case4 cs c size hescape ih => simpa only [readText, hescape, prepend] using ih.map
  | case5 cs stop hescape => simpa only [readText, hescape] using .error (failsIn_readEscape start cs stop hescape)
  | case6 c cs _ _ hcontrol => simpa only [readText, hcontrol, ↓reduceIte] using failsIn_fault _ _
  | case7 c cs _ _ hcontrol ih => simpa only [readText, hcontrol, ↓reduceIte, prepend] using ih.map

theorem failsIn_finishNumber (negative : Bool) (whole rest : List Char) :
    FailsIn Stop.OfText (finishNumber negative whole rest) := by
  unfold finishNumber
  dsimp only
  split
  · unfold Number.ofDigits Number.integerOfDigits
    split <;> rename_i hdigits
    · exact .ok _
    · split at hdigits <;> cases hdigits
      exact .error ⟨_, rfl⟩
  · exact .ok _

theorem failsIn_readNumber (cs : List Char) : FailsIn Stop.OfText (readNumber cs) := by
  unfold readNumber
  dsimp only
  split
  · exact failsIn_finishNumber _ _ _
  · split
    · exact failsIn_finishNumber _ _ _
    · exact failsIn_fault _ _
  · exact failsIn_fault _ _

theorem failsIn_readKey (cs : List Char) : FailsIn Stop.OfText (readKey cs) := by
  unfold readKey
  split
  · split
    · rename_i cs stop htext
      exact .error (failsIn_readText _ _ _ stop htext)
    · split
      · exact .ok _
      · exact failsIn_fault _ _
  · exact failsIn_fault _ _

/-- Values, items and entries one by one, with less fuel for what is within. -/
theorem failsIn_readValue (fuel : Nat) :
    (∀ cs, FailsIn Stop.OfText (readValue fuel cs)) ∧ (∀ cs, FailsIn Stop.OfText (readItems fuel cs)) ∧
      ∀ cs, FailsIn Stop.OfText (readEntries fuel cs) := by
  induction fuel with
  | zero => exact ⟨fun _ => failsIn_fault _ _, fun _ => failsIn_fault _ _, fun _ => failsIn_fault _ _⟩
  | succ fuel ih =>
    obtain ⟨ihvalue, ihitems, ihentries⟩ := ih
    refine ⟨fun cs => ?_, fun cs => ?_, fun cs => ?_⟩
    · unfold readValue
      split
      · exact (failsIn_readText _ _ _).map
      · split
        · exact .ok _
        · exact (ihentries _).map
      · split
        · exact .ok _
        · exact (ihitems _).map
      · split
        · exact .ok _
        · exact failsIn_readNumber _
    · unfold readItems
      split
      · rename_i stop hvalue
        exact .error (ihvalue _ stop hvalue)
      · split
        · exact .ok _
        · exact (ihitems _).map
        · exact failsIn_fault _ _
    · unfold readEntries
      split
      · rename_i stop hkey
        exact .error (failsIn_readKey _ stop hkey)
      · split
        · rename_i stop hvalue
          exact .error (ihvalue _ stop hvalue)
        · split
          · exact .ok _
          · exact (ihentries _).map
          · exact failsIn_fault _ _

theorem failsIn_readDocument (cs : List Char) : FailsIn Stop.OfText (readDocument cs) := by
  unfold readDocument
  split
  · exact .error trivial
  · split
    · rename_i stop hvalue
      exact .error ((failsIn_readValue _).1 _ stop hvalue)
    · split
      · exact .ok _
      · exact .error trivial

theorem unreadable_of_read {text : String} {cause : Cause} (h : read text = .error (.failed cause)) :
    ∃ digits, cause = .unreadableInteger digits := by
  unfold read at h
  dsimp only at h
  split at h
  · cases h
  · rename_i cause' hread
    cases h
    exact failsIn_readDocument _ _ hread
  · cases h

end Reading

section Writing

variable {l : Layout} {P : Cause → Prop}

theorem failsIn_writeSpecial (hdouble : l.finiteOnly = true → ∀ text, P (.unwritableDouble text))
    (word literal : List Char) : FailsIn P (writeSpecial l word literal) := by
  unfold writeSpecial
  split
  · exact .error (hdouble ‹_› _)
  · exact .ok _

theorem failsIn_writeNumber (hinteger : P .unwritableInteger)
    (hdouble : l.finiteOnly = true → ∀ text, P (.unwritableDouble text)) (n : Number) : FailsIn P (writeNumber l n) := by
  cases n with
  | int i =>
    unfold writeNumber Number.intText
    dsimp only
    split
    · exact .error hinteger
    · exact .ok _
  | float x =>
    unfold writeNumber
    dsimp only
    split
    · exact .ok _
    · exact failsIn_writeSpecial hdouble _ _
  | unknown mark => exact failsIn_writeSpecial hdouble _ _

theorem failsIn_render (hinteger : P .unwritableInteger)
    (hdouble : l.finiteOnly = true → ∀ text, P (.unwritableDouble text)) (v : Value) : FailsIn P (render l v) := by
  have hwrite : FailsIn P (write l 0 v) :=
    failsIn_write (fun n _ => failsIn_writeNumber hinteger hdouble n) 0 (v.over_of_forall fun _ => True.intro)
  exact hwrite.map

end Writing

end Json

end RoutineFlow
