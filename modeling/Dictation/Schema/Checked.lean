import Dictation.Schema.Problem

/-!
# Reading values as records

A reading gives the value or all of its problems, in the order of the declared fields and of the
list items.

* `Checked.both`       two readings side by side;
* `Schema.listOf`      the items of a list;
* `Schema.required`, `Schema.withDefault`  a field of a record;
* `Schema.Variant`     one kind of tagged record; `Schema.tagged` picks the one that the tag names.
-/

namespace Dictation

abbrev Checked (α : Type) := Except (List Problem) α

namespace Checked

section
variable {α β γ : Type}

def both (f : α → β → γ) : Checked α → Checked β → Checked γ
  | .ok a, .ok b => .ok (f a b)
  | .error p, .ok _ => .error p
  | .ok _, .error q => .error q
  | .error p, .error q => .error (p ++ q)

theorem both_ok (f : α → β → γ) (a : α) (b : β) : both f (.ok a) (.ok b) = .ok (f a b) := rfl

theorem both_eq_ok_iff {f : α → β → γ} {a : Checked α} {b : Checked β} {c : γ} :
    both f a b = .ok c ↔ ∃ x y, a = .ok x ∧ b = .ok y ∧ f x y = c := by
  cases a <;> cases b <;> simp [both]

/-- the problems of a part, seen from the whole -/
def within (s : Step) : Checked α → Checked α
  | .ok a => .ok a
  | .error ps => .error (ps.map fun p => { p with path := s :: p.path })

theorem within_ok (s : Step) (a : α) : within s (.ok a) = .ok a := rfl

theorem within_eq_ok_iff {s : Step} {c : Checked α} {a : α} : within s c = .ok a ↔ c = .ok a := by
  cases c <;> simp [within]

def fail (cause : Cause) (given : Json) : Checked α := .error [⟨[], cause, given⟩]

end
end Checked

namespace Schema

/-! ## single values -/

def text (v : Json) : Checked Text :=
  match v.text? with
  | some t => .ok t
  | none => Checked.fail .notText v

theorem text_ofText (t : Text) : text (Json.ofText t) = .ok t := by
  rw [text, Json.text?_ofText]

/-- a word that stands for a truth value, in any case -/
def boolWord? (t : Text) : Option Bool :=
  let w := t.map Char.toLower
  if ["1".toList, "t".toList, "true".toList, "y".toList, "yes".toList, "on".toList].contains w then
    some true
  else if ["0".toList, "f".toList, "false".toList, "n".toList, "no".toList, "off".toList].contains w
  then some false
  else none

def boolInt? (i : Int) : Option Bool :=
  if i = 1 then some true else if i = 0 then some false else none

/-- two to the power 63 -/
def wordBound : Int := 9223372036854775808

/-- whole numbers between the bounds of 64 bits; one without a point may be the lower bound -/
def isSmall (i : Int) : Bool := -wordBound < i && i < wordBound

def bool (v : Json) : Checked Bool :=
  let ofOption (o : Option Bool) : Checked Bool :=
    match o with
    | some b => .ok b
    | none => Checked.fail .unclearBool v
  match v with
  | .bool b => .ok b
  | .str s => ofOption ((Units.decode? s).bind boolWord?)
  | .int i => if isSmall i || i == -wordBound then ofOption (boolInt? i) else Checked.fail .notBool v
  | .float x =>
    match x.toInt? with
    | some i => if isSmall i then ofOption (boolInt? i) else Checked.fail .notBool v
    | none => Checked.fail .notBool v
  | _ => Checked.fail .notBool v

section
variable {α : Type}

/-- the value that a word names -/
def among (all : List α) (name : α → Text) (v : Json) : Checked α :=
  match v.text?.bind fun t => all.find? fun a => name a == t with
  | some a => .ok a
  | none => Checked.fail (.notAmong (all.map name)) v

/-! ## lists -/

def itemsFrom (read : Json → Checked α) (i : Nat) : List Json → Checked (List α)
  | [] => .ok []
  | v :: vs =>
    Checked.both List.cons (Checked.within (.index i) (read v)) (itemsFrom read (i + 1) vs)

def listOf (read : Json → Checked α) : Json → Checked (List α)
  | .arr items => itemsFrom read 0 items
  | v => Checked.fail .notList v

theorem itemsFrom_map {β : Type} {read : Json → Checked α} {write : β → Json} {f : β → α}
    {bs : List β} (h : ∀ b ∈ bs, read (write b) = .ok (f b)) (i : Nat) :
    itemsFrom read i (bs.map write) = .ok (bs.map f) := by
  induction bs generalizing i with
  | nil => rfl
  | cons b bs ih =>
    simp only [List.map_cons, itemsFrom]
    rw [h b List.mem_cons_self, ih (fun b' hb => h b' (List.mem_cons_of_mem _ hb))]
    rfl

/-! ## fields -/

def required (name : String) (read : Json → Checked α) (fs : Fields) : Checked α :=
  match Json.get? (Json.key name) fs with
  | some v => Checked.within (.field name.toList) (read v)
  | none => .error [⟨[.field name.toList], .missing, .obj fs⟩]

def withDefault (name : String) (read : Json → Checked α) (default : α) (fs : Fields) :
    Checked α :=
  match Json.get? (Json.key name) fs with
  | some v => Checked.within (.field name.toList) (read v)
  | none => .ok default

/-- the tag of a record may be left out where the kind of the record is known -/
def ownTag (name : String) (expected : Text) (fs : Fields) : Checked Unit :=
  withDefault name (fun v =>
    if v.text? == some expected then .ok () else Checked.fail (.otherTag expected) v) () fs

/-- a value as null or as something else -/
def orNull (read : Json → Checked α) : Json → Checked (Option α)
  | .null => .ok none
  | v => (read v).map some

/-! ## records -/

def record (model : String) (read : Fields → Checked α) : Json → Checked α
  | .obj fs => read fs
  | v => Checked.fail (.notModel model.toList) v

/-- one kind of tagged record -/
structure Variant (α : Type) where
  tag : Text
  model : String
  fields : Fields → Checked α

def Variant.read (v : Variant α) : Json → Checked α := record v.model v.fields

/-- a record of the kind that its tag names -/
def tagged (key : String) (variants : List (Variant α)) (v : Json) : Checked α :=
  match v with
  | .obj fs =>
    match Json.get? (Json.key key) fs with
    | none => Checked.fail (.untagged key.toList) v
    | some tag =>
      match variants.find? fun x => tag.text? == some x.tag with
      | some x => Checked.within (.field x.tag) (x.fields fs)
      | none => Checked.fail (.unknownTag tag.plainText key.toList (variants.map (·.tag))) v
  | _ => Checked.fail .notRecord v

end
end Schema
end Dictation
