import Dictation.Number.Binary64
import Dictation.Text.Units

/-!
# JSON values

Strings are lists of sixteen-bit units: an escape names a unit, and a surrogate without its partner
is allowed.  Whole numbers are exact and apart from numbers with a point or an exponent.  The fields
of an object keep their order; a field put again keeps its place.

* `Json.put`, `Json.get?`   fields by key;
* `Json.object`             fields put one after the other.
-/

namespace Dictation

inductive Json where
  | null
  | bool (b : Bool)
  | int (i : Int)
  | float (x : Binary64)
  | str (s : Units)
  | arr (items : List Json)
  | obj (fields : List (Units × Json))

abbrev Fields := List (Units × Json)

namespace Json

def ofText (t : Text) : Json := .str (Units.encode t)
def ofNat (n : Nat) : Json := .int n

/-- a key or string of the program's own -/
def key (s : String) : Units := Units.encode s.toList

def text? : Json → Option Text
  | .str s => Units.decode? s
  | _ => none

theorem text?_ofText (t : Text) : (ofText t).text? = some t := Units.decode?_encode t

/-! ## fields -/

def get? (k : Units) : Fields → Option Json
  | [] => none
  | (k', v) :: fs => if k' = k then some v else get? k fs

def put (k : Units) (v : Json) : Fields → Fields
  | [] => [(k, v)]
  | (k', v') :: fs => if k' = k then (k', v) :: fs else (k', v') :: put k v fs

theorem get?_nil (k : Units) : get? k [] = none := rfl
theorem put_nil (k : Units) (v : Json) : put k v [] = [(k, v)] := rfl

theorem get?_put_self (k : Units) (v : Json) (fs : Fields) : get? k (put k v fs) = some v := by
  induction fs with
  | nil => simp [put, get?]
  | cons f fs ih =>
    obtain ⟨k', v'⟩ := f
    by_cases h : k' = k <;> simp [put, get?, h, ih]

theorem get?_put_of_ne {k k' : Units} (h : k ≠ k') (v : Json) (fs : Fields) :
    get? k' (put k v fs) = get? k' fs := by
  induction fs with
  | nil => simp [put, get?, h]
  | cons f fs ih =>
    obtain ⟨k'', v'⟩ := f
    by_cases h' : k'' = k
    · subst h'
      simp [put, get?, h]
    · simp [put, get?, h', ih]

/-- the fields put one after the other; of two with one key the later value counts -/
def object (fs : Fields) : Json := .obj (fs.foldl (fun fs f => put f.1 f.2 fs) [])

/-! ## kinds of value -/

inductive Kind where
  | null
  | bool
  | int
  | float
  | str
  | arr
  | obj
deriving DecidableEq, Repr

def kind : Json → Kind
  | .null => .null
  | .bool _ => .bool
  | .int _ => .int
  | .float _ => .float
  | .str _ => .str
  | .arr _ => .arr
  | .obj _ => .obj

end Json
end Dictation
