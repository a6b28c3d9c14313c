import RoutineFlow.Proofs.Mapping
import RoutineFlow.Proofs.Numerals
import RoutineFlow.Proofs.Results
import RoutineFlow.Value.Mark

/-!
Numbers that are neither infinite nor what is no number, and the values that hold no others. Negation and absolute
value change nothing but the sign of a double, and every other operation refuses a result that is not finite.
-/

namespace RoutineFlow

namespace Binary

open Float.Model (Format)
open Float.Model.UnpackedFloat

variable {s : Sign} {e : BitVec 11} {m : BitVec 52} {x : Float}

theorem pack_abs_unpack (he : e ≠ 2047#11) :
    pack Format.binary64 (unpack Format.binary64 (packComponents Format.binary64 s e m)).abs =
      packComponents Format.binary64 .positive e m := by
  -- a magnitude does not depend on the sign of the double
  have habs : (unpack Format.binary64 (packComponents Format.binary64 s e m)).abs =
      unpack Format.binary64 (packComponents Format.binary64 .positive e m) := by
    by_cases hzero : e = 0#11
    · subst hzero
      by_cases hm : m = 0#52
      · subst hm
        rw [unpack_zero, unpack_zero]
        rfl
      · have hpos : 0 < m.toNat := by
          apply Nat.pos_of_ne_zero
          intro hnone
          exact hm (BitVec.eq_of_toNat_eq hnone)
        rw [unpack_subnormal hm hpos, unpack_subnormal hm hpos]
        rfl
    · have hpos : 0 < (1#1 ++ m).toNat := by
        rw [toNat_append_one]
        omega
      rw [unpack_normal hzero he hpos, unpack_normal hzero he hpos]
      rfl
  rw [habs, pack_unpack he]

theorem isFinite_iff : Number.isFinite x = true ↔ x.toBits.toNat / 2 ^ 52 % 2 ^ 11 ≠ 2047 := by
  constructor
  · intro h hexponent
    unfold Number.isFinite ofFloat ofBits at h
    simp only [Nat.pow_eq, hexponent, ↓reduceIte] at h
    by_cases hfraction : x.toBits.toNat % 2 ^ 52 = 0
    · simp only [hfraction, ↓reduceIte] at h
      cases h
    · simp only [hfraction, ↓reduceIte] at h
      cases h
  · intro h
    obtain ⟨_, _, _, hfinite⟩ := ofBits_finite h
    unfold Number.isFinite ofFloat
    rw [hfinite]

theorem isFinite_of_toBits (hbits : x.toBits.toBitVec = packComponents Format.binary64 s e m)
    (he : e ≠ 2047#11) : Number.isFinite x = true := by
  have hnat : x.toBits.toNat = s.toBitVec.toNat * 2 ^ 63 + e.toNat * 2 ^ 52 + m.toNat := by
    rw [← toNat_packComponents, ← hbits, UInt64.toNat_toBitVec]
  have he' : e.toNat ≠ 2047 := by
    intro heq
    apply he
    apply BitVec.eq_of_toNat_eq
    simpa using heq
  have hm := m.isLt
  have hlt := e.isLt
  rw [isFinite_iff]
  omega

theorem toBits_of_isFinite (h : Number.isFinite x = true) :
    ∃ (s : Sign) (e : BitVec 11) (m : BitVec 52), e ≠ 2047#11 ∧
      x.toBits.toBitVec = packComponents Format.binary64 s e m := by
  have hlt : x.toBits.toNat < 2 ^ 64 := x.toBits.toBitVec.isLt
  have hsign : ∃ s : Sign, s.toBitVec.toNat = x.toBits.toNat / 2 ^ 63 := by
    have hbit : x.toBits.toNat / 2 ^ 63 < 2 := by omega
    generalize x.toBits.toNat / 2 ^ 63 = bit at hbit
    interval_cases bit
    · exact ⟨.positive, rfl⟩
    · exact ⟨.negative, rfl⟩
  obtain ⟨s, hs⟩ := hsign
  refine ⟨s, BitVec.ofNat 11 (x.toBits.toNat / 2 ^ 52), BitVec.ofNat 52 x.toBits.toNat, ?_, ?_⟩
  · intro he
    apply isFinite_iff.mp h
    rw [← BitVec.toNat_ofNat, he]
    rfl
  · apply BitVec.eq_of_toNat_eq
    rw [toNat_packComponents, hs, BitVec.toNat_ofNat, BitVec.toNat_ofNat, UInt64.toNat_toBitVec]
    omega

theorem isFinite_neg (h : Number.isFinite x = true) : Number.isFinite (-x) = true := by
  obtain ⟨s, e, m, he, hbits⟩ := toBits_of_isFinite h
  have hneg : (-x).toBits.toBitVec =
      pack Format.binary64 (unpack Format.binary64 x.toBits.toBitVec).neg := rfl
  rw [hbits, pack_neg_unpack he] at hneg
  exact isFinite_of_toBits hneg he

theorem isFinite_abs (h : Number.isFinite x = true) : Number.isFinite x.abs = true := by
  obtain ⟨s, e, m, he, hbits⟩ := toBits_of_isFinite h
  have habs : x.abs.toBits.toBitVec =
      pack Format.binary64 (unpack Format.binary64 x.toBits.toBitVec).abs := rfl
  rw [hbits, pack_abs_unpack he] at habs
  exact isFinite_of_toBits habs he

end Binary

/-- What comes of it, if anything does, is in `P`. -/
def Yields {ε α : Type} (P : α → Prop) (r : Except ε α) : Prop :=
  ∀ a, r = .ok a → P a

namespace Yields

variable {ε ε' α β : Type} {P : α → Prop} {Q : β → Prop} {r : Except ε α}

theorem ok {a : α} (h : P a) : Yields P (.ok a : Except ε α) := by
  rintro _ ⟨⟩
  exact h

theorem error (e : ε) : Yields P (.error e : Except ε α) := nofun

theorem bind {f : α → Except ε β} (h : Yields P r) (hf : ∀ a, P a → Yields Q (f a)) : Yields Q (r >>= f) := by
  cases r with
  | error e => exact error e
  | ok a => exact hf a (h a rfl)

theorem foldlM {γ : Type} {f : α → γ → Except ε α} {items : List γ} {a : α} (ha : P a)
    (hf : ∀ a, ∀ item ∈ items, P a → Yields P (f a item)) : Yields P (items.foldlM f a) := by
  induction items generalizing a with
  | nil => exact ok ha
  | cons item items ih =>
    rw [List.foldlM_cons]
    refine (hf a item List.mem_cons_self ha).bind fun b hb => ih hb ?_
    exact fun c other hother => hf c other (List.mem_cons_of_mem _ hother)

theorem map {f : α → β} (h : Yields P r) (hf : ∀ a, P a → Q (f a)) : Yields Q (r.map f) := by
  cases r with
  | error e => exact error e
  | ok a => exact ok (hf a (h a rfl))

theorem mapError {f : ε → ε'} (h : Yields P r) : Yields P (r.mapError f) := by
  cases r with
  | error e => exact error _
  | ok a => exact ok (h a rfl)

theorem mono {P' : α → Prop} (h : Yields P r) (hP : ∀ a, P a → P' a) : Yields P' r :=
  fun a ha => hP a (h a ha)

theorem trivial : Yields (fun _ => True) r := fun _ _ => True.intro

end Yields

/-- What it fails by, if it does, is in `P`. -/
def FailsIn {ε α : Type} (P : ε → Prop) (r : Except ε α) : Prop :=
  ∀ e, r = .error e → P e

namespace FailsIn

variable {ε α β : Type} {P : ε → Prop} {r : Except ε α}

theorem ok (a : α) : FailsIn P (.ok a : Except ε α) := nofun

theorem error {e : ε} (h : P e) : FailsIn P (.error e : Except ε α) := by
  rintro _ ⟨⟩
  exact h

theorem bind {f : α → Except ε β} (h : FailsIn P r) (hf : ∀ a, FailsIn P (f a)) : FailsIn P (r >>= f) := by
  cases r with
  | error e => exact error (h e rfl)
  | ok a => exact hf a

theorem map {f : α → β} (h : FailsIn P r) : FailsIn P (r.map f) := by
  cases r with
  | error e => exact error (h e rfl)
  | ok a => exact ok _

theorem mono {Q : ε → Prop} (h : FailsIn P r) (hPQ : ∀ e, P e → Q e) : FailsIn Q r :=
  fun e he => hPQ e (h e he)

theorem mapM {f : α → Except ε β} {items : List α} (h : ∀ a ∈ items, FailsIn P (f a)) : FailsIn P (items.mapM f) := by
  intro e he
  obtain ⟨before, a, after, bs, rfl, -, ha⟩ := Results.mapM_eq_error.mp he
  exact h a (by simp) e ha

end FailsIn

namespace Number

/-- Neither infinite nor what is no number. -/
def Finite : Number → Prop
  | .int _ => True
  | .float x => isFinite x = true
  | .unknown _ => False

variable {m n k : Number}

theorem finite_int (i : Int) : (int i).Finite := trivial

theorem finite_ofResult {x : Float} (h : isFinite x = true) : (ofResult x).Finite := by
  rw [ofResult_of_isFinite h]
  exact h

theorem Finite.negate (h : n.Finite) : n.negate.Finite := by
  cases n with
  | int i => exact finite_int _
  | float x => exact finite_ofResult (Binary.isFinite_neg h)
  | unknown mark => cases h

theorem Finite.absolute (h : n.Finite) : n.absolute.Finite := by
  cases n with
  | int i => exact finite_int _
  | float x => exact finite_ofResult (Binary.isFinite_abs h)
  | unknown mark => cases h

theorem finite_of_finite? {x : Float} (h : finite? x = some n) : n.Finite := by
  unfold finite? at h
  split at h
  · cases h
    assumption
  · cases h

theorem finite_of_onFloats {f : Float → Float → Float} (h : onFloats f m n = some k) : k.Finite := by
  unfold onFloats at h
  obtain ⟨x, -, h⟩ := Option.bind_eq_some_iff.mp h
  obtain ⟨y, -, h⟩ := Option.bind_eq_some_iff.mp h
  exact finite_of_finite? h

theorem finite_of_arithmetic {op : Number → Number → Option Number}
    (hop : op ∈ [add, subtract, multiply, divide, modulo]) (h : op m n = some k) : k.Finite := by
  simp only [List.mem_cons, List.not_mem_nil, or_false] at hop
  rcases hop with rfl | rfl | rfl | rfl | rfl
  · unfold add at h
    split at h
    · cases h
      exact finite_int _
    · exact finite_of_onFloats h
  · unfold subtract at h
    split at h
    · cases h
      exact finite_int _
    · exact finite_of_onFloats h
  · unfold multiply at h
    split at h
    · cases h
      exact finite_int _
    · exact finite_of_onFloats h
  · unfold divide at h
    split at h
    · exact finite_of_finite? h
    · exact finite_of_onFloats h
  · unfold modulo at h
    split at h
    · cases h
      exact finite_int _
    · exact finite_of_onFloats h

theorem finite_roundFloat {x : Float} (h : isFinite x = true) (digits : Int) :
    Yields (isFinite · = true) (roundFloat x digits) := by
  unfold roundFloat
  split
  · split
    · exact .ok h
    split
    · exact .ok (Binary.isFinite_nearest _ (by decide))
    simp only
    split
    · exact .ok ‹_›
    · exact .error _
  · exact .ok h

theorem finite_round (h : n.Finite) (digits : Int) : Yields Finite (n.round digits) := by
  unfold round
  split
  · exact Yields.trivial.map fun i _ => finite_int i
  cases n with
  | int i => exact .ok (finite_int _)
  | float x => exact (finite_roundFloat h digits).map fun y hy => finite_ofResult hy
  | unknown mark => cases h

theorem finite_ofText (s : String) : Yields Finite (ofText s) := by
  have hdigits : ∀ negative digits n, (ofDigits negative digits).toOption = some n → n.Finite := by
    intro negative digits n h
    unfold ofDigits integerOfDigits at h
    split at h
    · cases h
    · cases h
      exact finite_int _
  unfold ofText
  simp only
  split
  · rename_i n hn
    split at hn
    · exact .ok (hdigits _ _ _ hn)
    · cases hn
  · split
    · exact .error _
    · split
      · exact .ok ‹_›
      · exact .error _

theorem Finite.keep (h : n.Finite) (mark : Mark) : n.keep mark = n := by
  cases n with
  | int i => rfl
  | float x => rfl
  | unknown mark => cases h

end Number

namespace Mapping

variable {κ α : Type} {P : κ → Prop} {Q : α → Prop} {m n : Mapping κ α} {key : κ} {v : α}

/-- All keys are in `P` and all values in `Q`. -/
def Each (P : κ → Prop) (Q : α → Prop) (m : Mapping κ α) : Prop :=
  ∀ entry ∈ m, P entry.1 ∧ Q entry.2

theorem each_nil : Each P Q ([] : Mapping κ α) := nofun

theorem each_cons : Each P Q ((key, v) :: m) ↔ (P key ∧ Q v) ∧ Each P Q m := List.forall_mem_cons

variable [BEq κ]

theorem Each.of_get? (h : Each P Q m) (hget : get? m key = some v) : Q v := by
  induction m with
  | nil => cases hget
  | cons entry m ih =>
    obtain ⟨hentry, hrest⟩ := each_cons.mp h
    rw [get?, List.lookup_cons] at hget
    split at hget
    · cases hget
      exact hentry.2
    · exact ih hrest hget

theorem Each.insert (h : Each P Q m) (hkey : P key) (hv : Q v) : Each P Q (insert m key v) := by
  induction m with
  | nil => exact each_cons.mpr ⟨⟨hkey, hv⟩, each_nil⟩
  | cons entry m ih =>
    obtain ⟨hentry, hrest⟩ := each_cons.mp h
    unfold Mapping.insert
    split
    · exact each_cons.mpr ⟨⟨hentry.1, hv⟩, hrest⟩
    · exact each_cons.mpr ⟨hentry, ih hrest⟩

theorem Each.merge (hm : Each P Q m) (hn : Each P Q n) : Each P Q (merge m n) := by
  induction n generalizing m with
  | nil => exact hm
  | cons entry n ih =>
    obtain ⟨hentry, hrest⟩ := each_cons.mp hn
    exact ih (hm.insert hentry.1 hentry.2) hrest

theorem Each.ofEntries (h : Each P Q m) : Each P Q (ofEntries m) :=
  each_nil.merge h

end Mapping

/-- If the key is a number, it is in `P`. -/
def Key.Over (P : Number → Prop) : Key → Prop
  | .num n => P n
  | _ => True

theorem Key.over_text {P : Number → Prop} (s : String) : (Key.text s).Over P := trivial

namespace Value

/-- All numbers within the value are in `P`, keys among them. -/
inductive Over (P : Number → Prop) : Value → Prop
  | null : Over P .null
  | bool (b : Bool) : Over P (.bool b)
  | num {n : Number} (h : P n) : Over P (.num n)
  | str (s : String) : Over P (.str s)
  | list {items : List Value} (hitems : ∀ v ∈ items, Over P v) : Over P (.list items)
  | map {entries : Environment} (hkeys : ∀ entry ∈ entries, entry.1.Over P)
      (hvalues : ∀ entry ∈ entries, Over P entry.2) : Over P (.map entries)

attribute [simp] Over.null Over.bool Over.str

end Value

def Environment.Over (P : Number → Prop) (env : Environment) : Prop :=
  Mapping.Each (Key.Over P) (Value.Over P) env

namespace Value

section Over

variable {P : Number → Prop} {items : List Value} {entries : Environment}

@[simp] theorem over_num {n : Number} : (Value.num n).Over P ↔ P n := by
  constructor
  · rintro ⟨⟩
    assumption
  · exact .num

@[simp] theorem over_list : (Value.list items).Over P ↔ ∀ v ∈ items, v.Over P := by
  constructor
  · intro h
    cases h with
    | list hitems => exact hitems
  · exact .list

@[simp] theorem over_map : (Value.map entries).Over P ↔ Environment.Over P entries := by
  constructor
  · intro h
    cases h with
    | map hkeys hvalues => exact fun entry hentry => ⟨hkeys entry hentry, hvalues entry hentry⟩
  · intro h
    exact .map (fun entry hentry => (h entry hentry).1) fun entry hentry => (h entry hentry).2

@[simp] theorem over_record {fields : Mapping String Value} :
    (Value.record fields).Over P ↔ ∀ field ∈ fields, field.2.Over P := by
  rw [record, over_map]
  constructor
  · intro h field hfield
    exact (h _ (List.mem_map_of_mem hfield)).2
  · intro h entry hentry
    obtain ⟨field, hfield, rfl⟩ := List.mem_map.mp hentry
    exact ⟨Key.over_text _, h field hfield⟩

theorem over_ofKey {key : Key} : (ofKey key).Over P ↔ key.Over P := by
  cases key <;> simp [ofKey, Key.Over]

end Over

/-- No number within the value, be it a key, is infinite or no number. -/
def Finite (v : Value) : Prop :=
  v.Over Number.Finite

end Value

def Key.Finite (key : Key) : Prop :=
  key.Over Number.Finite

theorem Key.finite_text (s : String) : (Key.text s).Finite := trivial

def Environment.Finite (env : Environment) : Prop :=
  env.Over Number.Finite

namespace Value

variable {v w : Value} {items : List Value} {entries : Environment}

@[simp] theorem finite_null : Value.null.Finite := .null

@[simp] theorem finite_bool (b : Bool) : (Value.bool b).Finite := .bool b

@[simp] theorem finite_str (s : String) : (Value.str s).Finite := .str s

@[simp] theorem finite_int (i : Int) : (Value.int i).Finite := .num (Number.finite_int i)

@[simp] theorem finite_num {n : Number} : (Value.num n).Finite ↔ n.Finite := over_num

@[simp] theorem finite_list : (Value.list items).Finite ↔ ∀ v ∈ items, v.Finite := over_list

@[simp] theorem finite_map : (Value.map entries).Finite ↔ Environment.Finite entries := over_map

@[simp] theorem finite_record {fields : Mapping String Value} :
    (Value.record fields).Finite ↔ ∀ field ∈ fields, field.2.Finite := over_record

theorem finite_ofKey {key : Key} : (ofKey key).Finite ↔ key.Finite := over_ofKey

theorem Finite.key? {key : Key} (h : v.Finite) (hkey : v.key? = some key) : key.Finite := by
  cases v <;> cases hkey
  · trivial
  · trivial
  · exact finite_num.mp h
  · trivial

theorem Finite.toKey (h : v.Finite) : Yields Key.Finite v.toKey := by
  unfold Value.toKey
  split
  · exact .ok (h.key? ‹_›)
  · exact .error _

theorem Finite.number? {n : Number} (h : v.Finite) (hn : v.number? = some n) : n.Finite := by
  cases v <;> cases hn
  · exact Number.finite_int _
  · exact finite_num.mp h

theorem Finite.toNumber (h : v.Finite) : Yields Number.Finite v.toNumber := by
  cases v with
  | bool b => exact .ok (Number.finite_int _)
  | num n => exact .ok (finite_num.mp h)
  | str s => exact Number.finite_ofText s
  | _ => exact .error _

theorem Finite.get? {key : Key} (h : (Value.map entries).Finite) :
    ((Mapping.get? entries key).getD .null).Finite := by
  cases hget : Mapping.get? entries key with
  | none => exact .null
  | some v => exact (finite_map.mp h).of_get? hget

mutual

/-- Nothing finite is new, so that all of it is kept as it is. -/
theorem keep_eq (mark : List Nat → Mark) (place : List Nat) : ∀ {v : Value}, v.Finite → keep mark place v = v
  | .null, _ => rfl
  | .bool _, _ => rfl
  | .num n, h => by rw [keep, (finite_num.mp h).keep]
  | .str _, _ => rfl
  | .list items, h => by rw [keep, keepItems_eq mark place 0 (finite_list.mp h)]
  | .map entries, h => by rw [keep, keepEntries_eq mark place 0 (finite_map.mp h)]

theorem keepItems_eq (mark : List Nat → Mark) (place : List Nat) (index : Nat) :
    ∀ {items : List Value}, (∀ v ∈ items, v.Finite) → keepItems mark place index items = items
  | [], _ => rfl
  | v :: rest, h => by
    obtain ⟨hv, hrest⟩ := List.forall_mem_cons.mp h
    rw [keepItems, keep_eq mark (index :: place) hv, keepItems_eq mark place (index + 1) hrest]

theorem keepEntries_eq (mark : List Nat → Mark) (place : List Nat) (index : Nat) :
    ∀ {entries : List (Key × Value)}, Environment.Finite entries → keepEntries mark place index entries = entries
  | [], _ => rfl
  | (key, v) :: rest, h => by
    obtain ⟨⟨-, hv⟩, hrest⟩ := Mapping.each_cons.mp h
    rw [keepEntries, keep_eq mark (index :: place) hv, keepEntries_eq mark place (index + 1) hrest]

end

end Value

end RoutineFlow
