import RoutineFlow.Files.Bytes
import RoutineFlow.Proofs.Mapping
import RoutineFlow.Proofs.Results

/-!
Writing changes the file at the path and nothing else. Directories stay what they are, so that paths go on leading where
they led.
-/

namespace RoutineFlow

open Results (bind_eq_ok bind_eq_error mapError_eq_ok mapError_eq_error)

namespace Encoding

theorem check_eq_ok {e : Encoding} {text : String} : e.check text = .ok () ↔ ∀ c ∈ text.toList, e.has c = true := by
  rw [← List.dropWhile_eq_nil_iff, ← List.isEmpty_iff, check]
  cases (text.toList.dropWhile e.has).isEmpty <;> simp

theorem check_utf8 (text : String) : utf8.check text = .ok () :=
  check_eq_ok.mpr fun _ _ => rfl

end Encoding

theorem Content.ofBytes_toUTF8 (s : String) : ofBytes s.toUTF8 = .text s := by
  have hread : String.fromUTF8? s.toUTF8 = some s := dif_pos s.isValidUTF8
  rw [ofBytes, hread]

namespace Folder

variable {d d' d'' : Folder} {p q place : Path} {text : String} {failure : FileFailure}

/-- What stands where a path leads to, if it leads anywhere. -/
def find? (d : Folder) (p : Path) : Option Node :=
  (d.place p).toOption.bind d.node?

theorem find?_eq_some {node : Node} :
    d.find? p = some node ↔ ∃ place, d.place p = .ok place ∧ d.node? place = some node := by
  unfold find?
  cases d.place p <;> simp [Except.toOption]

theorem follow_cons_eq_ok {place last : Path} {name : String} {rest : List String} :
    d.follow place (name :: rest) = .ok last ↔ d.node? place = some .directory ∧
      d.refuses .look (step place name).text = none ∧ d.follow (step place name) rest = .ok last := by
  simp only [follow]
  cases d.node? place with
  | none => simp
  | some node => cases node with
    | file content => simp
    | directory => cases d.refuses .look (step place name).text <;> simp

/-- Paths that do not lead to one place. -/
def Apart (d : Folder) (p q : Path) : Prop :=
  ∀ a b, d.place p = .ok a → d.place q = .ok b → a.text ≠ b.text

/-- A path leads to a place where there can be a file, and the system lets it be written. -/
def Writable (d : Folder) (p : Path) : Prop :=
  ∃ place, d.target p = .ok place

theorem Apart.symm (h : d.Apart p q) : d.Apart q p :=
  fun a b ha hb => (h b a hb ha).symm

theorem target_eq_ok : d.target p = .ok place ↔ p.hasNull = false ∧ d.place p = .ok place ∧
    d.node? place ≠ some .directory ∧ d.refuses .write place.text = none := by
  unfold target
  cases p.hasNull with
  | true => simp
  | false =>
    cases hplace : d.place p with
    | error fault => simp
    | ok found =>
      simp only [Bool.false_eq_true, ↓reduceIte, true_and, Except.ok.injEq]
      by_cases hdirectory : d.node? found = some .directory
      · simp only [hdirectory, ↓reduceIte, reduceCtorEq, false_iff, not_and]
        rintro rfl hfree
        exact absurd hdirectory hfree
      · simp only [hdirectory, ↓reduceIte]
        cases hrefused : d.refuses .write found.text with
        | some fault =>
          simp only [reduceCtorEq, false_iff, not_and]
          rintro rfl -
          simp [hrefused]
        | none =>
          simp only [Except.ok.injEq, iff_self_and]
          rintro rfl
          exact ⟨hdirectory, hrefused⟩

theorem write_eq_ok : d.write p text = .ok d' ↔ ∃ place, d.target p = .ok place ∧
    d.encoding.check text = .ok () ∧ d' = d.setFile place text := by
  unfold write
  simp only [bind_eq_ok, mapError_eq_ok]
  refine exists_congr fun place => and_congr_right fun _ => ?_
  constructor
  · rintro ⟨_, hcheck, ⟨⟩⟩
    exact ⟨hcheck, rfl⟩
  · rintro ⟨hcheck, rfl⟩
    exact ⟨(), hcheck, rfl⟩

theorem write_eq_error : d.write p text = .error failure ↔ d.target p = .error failure ∨
    d.Writable p ∧ ∃ cause, d.encoding.check text = .error cause ∧ failure = .value cause := by
  unfold write
  simp only [bind_eq_error, mapError_eq_error, Writable]
  refine or_congr_right ?_
  constructor
  · rintro ⟨place, htarget, ⟨cause, hcheck, rfl⟩ | ⟨_, -, ⟨⟩⟩⟩
    exact ⟨⟨place, htarget⟩, cause, hcheck, rfl⟩
  · rintro ⟨⟨place, htarget⟩, cause, hcheck, rfl⟩
    exact ⟨place, htarget, .inl ⟨cause, hcheck, rfl⟩⟩

theorem touch_eq_ok : d.touch p = .ok d' ↔ ∃ place, d.target p = .ok place ∧
    d' = if (d.node? place).isSome then d else d.setFile place "" := by
  unfold touch
  simp only [bind_eq_ok]
  exact exists_congr fun place => and_congr_right fun _ => ⟨fun h => (Except.ok.inj h).symm, fun h => h ▸ rfl⟩

theorem node?_setFile (d : Folder) (target : Path) (text : String) (place : Path) :
    (d.setFile target text).node? place = if isBase place then some .directory
      else if place.text = target.text then some (.file (.text text)) else d.node? place := by
  simp only [node?, setFile, Mapping.get?_insert, beq_iff_eq]
  split <;> rfl

/-- The second folder has the directories of the first, and no others. -/
def SameDirectories (d d' : Folder) : Prop :=
  ∀ place, d'.node? place = some .directory ↔ d.node? place = some .directory

theorem sameDirectories_setFile {target : Path} (h : d.node? target ≠ some .directory) (text : String) :
    d.SameDirectories (d.setFile target text) := by
  intro place
  rw [node?_setFile]
  split
  · rename_i hbase
    simp [node?, hbase]
  · rename_i hbase
    split
    · -- Here the place is the target itself, which was no directory and is none now.
      rename_i hkey
      have hnode : d.node? place = d.node? target := by
        have hfree : isBase target = false := by
          cases hbase : isBase target
          · rfl
          · simp [node?, hbase] at h
        simp only [node?, hbase, hfree, hkey, Bool.false_eq_true, ↓reduceIte]
      simpa [hnode] using h
    · rfl

theorem SameDirectories.place_eq_ok (h : d.SameDirectories d') (hrefuses : d'.refuses = d.refuses) :
    d'.place p = .ok place ↔ d.place p = .ok place := by
  have hfollow (names : List String) (start : Path) :
      d'.follow start names = .ok place ↔ d.follow start names = .ok place := by
    induction names generalizing start with
    | nil => rfl
    | cons name rest ih => rw [follow_cons_eq_ok, follow_cons_eq_ok, h start, hrefuses, ih]
  exact hfollow _ _

/-- The second folder comes from the first by writing to some of the paths. -/
structure Writes (paths : List Path) (d d' : Folder) : Prop where
  directories : d.SameDirectories d'
  refuses : d'.refuses = d.refuses
  find?_eq : ∀ q, (∀ p ∈ paths, d.Apart p q) → d'.find? q = d.find? q

namespace Writes

variable {paths : List Path}

theorem refl (d : Folder) : Writes paths d d :=
  ⟨fun _ => Iff.rfl, rfl, fun _ _ => rfl⟩

theorem place_eq_ok (h : Writes paths d d') : d'.place p = .ok place ↔ d.place p = .ok place :=
  h.directories.place_eq_ok h.refuses

theorem apart (h : Writes paths d d') : d'.Apart p q ↔ d.Apart p q := by
  simp only [Apart, h.place_eq_ok]

theorem writable (h : Writes paths d d') : d'.Writable p ↔ d.Writable p := by
  simp only [Writable, target_eq_ok, h.place_eq_ok, ne_eq, h.directories _, h.refuses]

theorem trans (h : Writes paths d d') (h' : Writes paths d' d'') : Writes paths d d'' where
  directories place := (h'.directories place).trans (h.directories place)
  refuses := h'.refuses.trans h.refuses
  find?_eq q hq := by
    rw [h'.find?_eq q fun p hp => h.apart.mpr (hq p hp), h.find?_eq q hq]

theorem mono {paths' : List Path} (h : Writes paths d d') (hsub : paths ⊆ paths') : Writes paths' d d' :=
  ⟨h.directories, h.refuses, fun q hq => h.find?_eq q fun p hp => hq p (hsub hp)⟩

end Writes

theorem find?_setFile (h : d.target p = .ok place) (text : String) :
    (d.setFile place text).find? p = some (.file (.text text)) := by
  obtain ⟨-, hplace, hnode, -⟩ := target_eq_ok.mp h
  have hbase : isBase place = false := by
    cases hbase : isBase place
    · rfl
    · simp [node?, hbase] at hnode
  refine find?_eq_some.mpr ⟨place, ?_, ?_⟩
  · exact (sameDirectories_setFile hnode text).place_eq_ok rfl |>.mpr hplace
  · simp [node?_setFile, hbase]

theorem writes_setFile (h : d.target p = .ok place) (text : String) : Writes [p] d (d.setFile place text) := by
  obtain ⟨-, hplace, hnode, -⟩ := target_eq_ok.mp h
  have hsame := sameDirectories_setFile hnode text
  refine ⟨hsame, rfl, fun q hq => ?_⟩
  have hother (other : Path) (hother : d.place q = .ok other) : (d.setFile place text).node? other = d.node? other := by
    have hne : other.text ≠ place.text := (hq p List.mem_cons_self place other hplace hother).symm
    rw [node?_setFile]
    simp only [hne, ↓reduceIte]
    split
    · rename_i hbase
      simp [node?, hbase]
    · rfl
  ext node
  simp only [find?_eq_some, hsame.place_eq_ok rfl]
  exact exists_congr fun other => and_congr_right fun h => by rw [hother other h]

theorem find?_write (h : d.write p text = .ok d') : d'.find? p = some (.file (.text text)) := by
  obtain ⟨place, htarget, -, rfl⟩ := write_eq_ok.mp h
  exact find?_setFile htarget text

theorem writes_write (h : d.write p text = .ok d') : Writes [p] d d' := by
  obtain ⟨place, htarget, -, rfl⟩ := write_eq_ok.mp h
  exact writes_setFile htarget text

theorem writes_touch (h : d.touch p = .ok d') : Writes [p] d d' := by
  obtain ⟨place, htarget, rfl⟩ := touch_eq_ok.mp h
  split
  · exact .refl d
  · exact writes_setFile htarget ""

end Folder

end RoutineFlow
