import Mathlib.Data.Rat.Defs
import Mathlib.Tactic.Common

/-!
# TiBackup.Lib.Json

**JSON values with total accessors.** Reading a value as a type it does not have
gives that type's default (`""`, `false`, no elements), and a field that is absent
reads as `null`, so a reader of JSON never fails: what it makes of a malformed
document is part of its meaning.

A number is a rational. It reads as an `int` when it is whole and fits 32 bits;
every other number, and everything that is not a number, reads as the default the
caller gives.
-/

namespace TiBackup.Lib

/-- A JSON value; an object lists its fields. -/
inductive Json
  | null
  | bool (b : Bool)
  | num (q : Rat)
  | str (s : String)
  | arr (xs : List Json)
  | obj (fs : List (String × Json))
  deriving Repr, Inhabited

namespace Json

/-- The fields of an object. -/
abbrev Fields := List (String × Json)

/-- The value of a field, `null` when it is absent. -/
def Fields.get (o : Fields) (k : String) : Json := (o.lookup k).getD .null

/-- Is the field present? -/
def Fields.contains (o : Fields) (k : String) : Bool := (o.lookup k).isSome

/-- Assign a field, where it is or after the others. -/
def Fields.set (o : Fields) (k : String) (v : Json) : Fields :=
  match o with
  | [] => [(k, v)]
  | f :: fs => if f.1 = k then (k, v) :: fs else f :: Fields.set fs k v

def toBool : Json → Bool
  | .bool b => b
  | _ => false

def toString : Json → String
  | .str s => s
  | _ => ""

def toArray : Json → List Json
  | .arr xs => xs
  | _ => []

def toObject : Json → Fields
  | .obj fs => fs
  | _ => []

/-- A whole number that fits 32 bits, else the default. -/
def toInt (default : Int32) : Json → Int32
  | .num q =>
    if q.den = 1 ∧ Int32.minValue.toInt ≤ q.num ∧ q.num ≤ Int32.maxValue.toInt then
      Int32.ofInt q.num
    else default
  | _ => default

/-- An integer as a JSON number. -/
def int (n : Int) : Json := .num n

@[simp] theorem toBool_bool (b : Bool) : (bool b).toBool = b := rfl
@[simp] theorem toString_str (s : String) : (str s).toString = s := rfl
@[simp] theorem toArray_arr (xs : List Json) : (arr xs).toArray = xs := rfl
@[simp] theorem toObject_obj (fs : Fields) : (obj fs).toObject = fs := rfl
@[simp] theorem toString_null : null.toString = "" := rfl

theorem Fields.get_cons (f : String × Json) (o : Fields) (k : String) :
    Fields.get (f :: o) k = if k = f.1 then f.2 else o.get k := by
  rw [Fields.get, List.lookup_cons]
  by_cases h : k = f.1
  · rw [beq_iff_eq.mpr h, if_pos h]
    rfl
  · rw [beq_false_of_ne h, if_neg h]
    rfl

/-- A field that was assigned is read back, and the others are as they were. -/
theorem Fields.get_set (o : Fields) (k : String) (v : Json) (k' : String) :
    (o.set k v).get k' = if k' = k then v else o.get k' := by
  induction o with
  | nil => exact get_cons _ _ _
  | cons f o ih =>
    rw [Fields.set]
    split
    · next hf =>
      rw [get_cons, get_cons, hf]
      split
      · rfl
      · rfl
    · next hf =>
      rw [get_cons, get_cons, ih]
      split
      · next hk => rw [if_neg (hk ▸ hf)]
      · rfl

/-- A field that follows the others does not change what they are read as. -/
theorem Fields.get_append_of_ne (o : Fields) {k k' : String} (h : k' ≠ k) (v : Json) :
    Fields.get (o ++ [(k, v)]) k' = o.get k' := by
  induction o with
  | nil => rw [List.nil_append, get_cons, if_neg h]
  | cons f o ih => rw [List.cons_append, get_cons, get_cons, ih]

theorem Fields.contains_cons (f : String × Json) (o : Fields) (k : String) :
    Fields.contains (f :: o) k = (k == f.1 || o.contains k) := by
  rw [Fields.contains, List.lookup_cons]
  cases k == f.1
  · rfl
  · rfl

theorem Fields.contains_set (o : Fields) (k : String) (v : Json) (k' : String) :
    (o.set k v).contains k' = (k' == k || o.contains k') := by
  induction o with
  | nil => exact contains_cons _ _ _
  | cons f o ih =>
    rw [Fields.set]
    split
    · next hf => rw [contains_cons, contains_cons, hf, ← Bool.or_assoc, Bool.or_self]
    · rw [contains_cons, contains_cons, ih, Bool.or_left_comm]

/-- Every 32-bit number survives the way through JSON. -/
@[simp] theorem toInt_int (d n : Int32) : (int n.toInt).toInt d = n := by
  have hmin : Int32.minValue.toInt ≤ n.toInt := Int32.minValue_le_toInt n
  have hmax : n.toInt ≤ Int32.maxValue.toInt := Int32.toInt_le n
  simp only [int, toInt, Rat.den_intCast, Rat.num_intCast, hmin, hmax, and_self, if_true]
  exact Int32.ofInt_toInt n

/-- Fields that are all blank read as blank. -/
theorem toString_get_of_blank {o : Fields} (h : ∀ f ∈ o, f.2 = .str "") (k : String) :
    (o.get k).toString = "" := by
  cases hk : o.lookup k with
  | none => simp [Fields.get, hk]
  | some v =>
    obtain ⟨pre, post, ho, -⟩ := List.lookup_eq_some_iff.mp hk
    have hv : v = .str "" := h (k, v) (by simp [ho])
    simp [Fields.get, hk, hv]

end Json

end TiBackup.Lib
